/-
Selections with every spread replaced by the fragment it names. A fragment is opened at most once
on the way down, so the expansion ends for every document; where one would be opened again inside
itself, the expansion says so (`cyclic`).
-/
import TypedQuery.GenerationError

namespace TypedQuery

inductive Expanded
  | field (key name : String) (conditional : Bool) (selections : List Expanded)
  | fragment (label : FragmentLabel) (condition? : Option String) (conditional : Bool)
      (selections : List Expanded)
  | undefined (fragment : String)
  | cyclic (fragment condition : String)
deriving Repr

/-- The fragments of other names. -/
def Fragment.others (name : String) (fragments : List Fragment) : List Fragment :=
  fragments.filter (·.name ≠ name)

theorem Fragment.length_others_lt {name : String} {fragments : List Fragment} {f : Fragment}
    (h : fragments.find? (·.name = name) = some f) :
    (Fragment.others name fragments).length < fragments.length := by
  refine List.length_filter_lt_length_iff_exists.2 ⟨f, List.mem_of_find?_eq_some h, ?_⟩
  have := List.find?_some h
  simp_all

/-- `unopened` holds the fragments that may still be opened. -/
def Document.expandWith (d : Document) (unopened : List Fragment) :
    List Selection → List Expanded
  | [] => []
  | .field alias? name conditional sub :: rest =>
    .field (alias?.getD name) name conditional (d.expandWith unopened sub) ::
      d.expandWith unopened rest
  | .inline condition? conditional sub :: rest =>
    .fragment .inline condition? conditional (d.expandWith unopened sub) ::
      d.expandWith unopened rest
  | .spread name conditional :: rest =>
    (match _h : unopened.find? (·.name = name) with
      | some f =>
        .fragment (.named name) (some f.condition) conditional
          (d.expandWith (Fragment.others name unopened) f.selections)
      | none =>
        match d.fragment? name with
        | some f => .cyclic name f.condition
        | none => .undefined name) ::
      d.expandWith unopened rest
termination_by selections => (unopened.length, sizeOf selections)
decreasing_by
  all_goals first
    | exact Prod.Lex.left _ _ (Fragment.length_others_lt _h)
    | (apply Prod.Lex.right
       simp only [List.cons.sizeOf_spec, Selection.field.sizeOf_spec, Selection.inline.sizeOf_spec]
       omega)

/-- The selections with every spread opened. -/
def Document.expand (d : Document) (selections : List Selection) : List Expanded :=
  d.expandWith d.fragments selections

namespace Expanded

mutual

/-- How many fields stand inside each other, at least one. -/
def levels : Expanded → Nat
  | field _ _ _ sub => levelsOf sub + 1
  | fragment _ _ _ sub => max 1 (levelsOf sub)
  | undefined _ => 1
  | cyclic _ _ => 1

/-- How many fields stand inside each other. -/
def levelsOf : List Expanded → Nat
  | [] => 0
  | s :: rest => max s.levels (levelsOf rest)

end

/-- Says of selections that the server may leave them out: they go into an inline fragment
without a condition, unless they are in one already. -/
def markConditional (selections : List Expanded) : List Expanded :=
  match selections with
  | [fragment .inline none true _] => selections
  | _ => [fragment .inline none true selections]

end Expanded

end TypedQuery
