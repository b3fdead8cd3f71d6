/-
The expansion of any document as a relation (`Expands`), cycles of fragments
too: where one stands in a fragment that does not apply, a run may succeed. What
a run expands is related to the selections it was given (`expand_expands`), so a
proof may follow the selections where the recursion of `expand` is by the
fragments that are left.
-/
import TypedQuery.Proofs.Opening

namespace TypedQuery

namespace Document

variable {d : Document} {selections : List Selection} {expanded : List Expanded}

/-- `expanded` is `selections` with each spread opened, unless it is undefined or left out as cyclic. -/
inductive Expands (d : Document) : List Selection → List Expanded → Prop
  | nil : Expands d [] []
  | field {alias? name c sub expanded rest more} (h : Expands d sub expanded) (hr : Expands d rest more) :
    Expands d (.field alias? name c sub :: rest) (.field (alias?.getD name) name c expanded :: more)
  | inline {condition? c sub expanded rest more} (h : Expands d sub expanded) (hr : Expands d rest more) :
    Expands d (.inline condition? c sub :: rest) (.fragment .inline condition? c expanded :: more)
  | spread {name c f expanded rest more} (hf : d.fragment? name = some f) (h : Expands d f.selections expanded)
    (hr : Expands d rest more) :
    Expands d (.spread name c :: rest) (.fragment (.named name) (some f.condition) c expanded :: more)
  | undefined {name c rest more} (hf : d.fragment? name = none) (hr : Expands d rest more) :
    Expands d (.spread name c :: rest) (.undefined name :: more)
  | cyclic {name c f rest more} (hf : d.fragment? name = some f) (hr : Expands d rest more) :
    Expands d (.spread name c :: rest) (.cyclic name f.condition :: more)

theorem fragment?_of_find?_fragmentsOutside {names : List String} {name : String} {f : Fragment}
    (h : (d.fragmentsOutside names).find? (·.name = name) = some f) : d.fragment? name = some f := by
  have hname : f.name = name := by simpa using List.find?_some h
  have hout : f.name ∉ names := by simpa using (List.mem_filter.1 (List.mem_of_find?_eq_some h)).2
  rwa [find?_fragmentsOutside (hname ▸ hout)] at h

theorem expandWith_expands {unopened : List Fragment} {opened : List String}
    (hun : unopened = d.fragmentsOutside opened) : d.Expands selections (d.expandWith unopened selections) := by
  induction unopened, selections using Document.expandWith.induct generalizing opened with
  | case1 unopened =>
    rw [expandWith]
    exact .nil
  | case2 unopened alias? name c sub rest ih ihr =>
    rw [expandWith]
    exact .field (ih hun) (ihr hun)
  | case3 unopened condition? c sub rest ih ihr =>
    rw [expandWith]
    exact .inline (ih hun) (ihr hun)
  | case4 unopened name c rest ih ihr =>
    have hrest := ihr hun
    subst hun
    rw [expandWith]
    split
    next f hf => exact .spread (fragment?_of_find?_fragmentsOutside hf) (ih f hf others_fragmentsOutside) hrest
    next =>
      cases hf : d.fragment? name with
      | none => exact .undefined hf hrest
      | some f => exact .cyclic hf hrest

/-- The expansion of any selections of any document. -/
theorem expand_expands (d : Document) (selections : List Selection) : d.Expands selections (d.expand selections) :=
  expandWith_expands (show d.fragments = d.fragmentsOutside [] by simp [fragmentsOutside])

end Document

end TypedQuery
