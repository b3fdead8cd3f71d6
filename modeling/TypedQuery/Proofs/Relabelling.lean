/-
A fragment that says on which type it stands needs no name. `Relabels` relates
expanded selections that differ in the labels of such fragments only, as those
of a spread and of its body written in place do. Labels are kept where
fragments are merged and split, and nothing but an error ever reads them: what
is collected from related selections is related (`collect_alike`), and so is
what they are split into (`split_alike`), or both fail with errors that differ
in a label at most (`SameButLabel`).
-/
import TypedQuery.Split
import Mathlib.Data.List.Forall2
import Mathlib.Logic.Basic

namespace TypedQuery

/-! ## Results that are alike -/

/-- The errors are the same but for how a fragment is called. -/
inductive GenerationError.SameButLabel : GenerationError → GenerationError → Prop
  | same (e) : SameButLabel e e
  | label (l l' : FragmentLabel) (condition enclosing : String) :
    SameButLabel (.incompatibleFragment l condition enclosing) (.incompatibleFragment l' condition enclosing)

/-- Both succeed, with results that `R` relates, or both fail with the same error but for a label. -/
inductive ResultsAlike {α β : Type} (R : α → β → Prop) :
    Except GenerationError α → Except GenerationError β → Prop
  | ok {a b} (h : R a b) : ResultsAlike R (.ok a) (.ok b)
  | error {e e'} (h : e.SameButLabel e') : ResultsAlike R (.error e) (.error e')

section ResultsAlike

variable {α β γ δ : Type} {R : α → β → Prop} {S : γ → δ → Prop}

theorem ResultsAlike.refl (x : Except GenerationError α) : ResultsAlike Eq x x := by
  cases x with
  | ok a => exact .ok rfl
  | error e => exact .error (.same e)

theorem ResultsAlike.bind {x : Except GenerationError α} {y : Except GenerationError β}
    {f : α → Except GenerationError γ} {g : β → Except GenerationError δ} (h : ResultsAlike R x y)
    (hf : ∀ a b, R a b → ResultsAlike S (f a) (g b)) : ResultsAlike S (x >>= f) (y >>= g) := by
  cases h with
  | ok h => exact hf _ _ h
  | error h => exact .error h

theorem foldlM_alike {f : γ → α → Except GenerationError γ} {g : δ → β → Except GenerationError δ}
    (hstep : ∀ c d a b, S c d → R a b → ResultsAlike S (f c a) (g d b)) {as : List α} {bs : List β}
    (h : List.Forall₂ R as bs) {c : γ} {d : δ} (hcd : S c d) : ResultsAlike S (as.foldlM f c) (bs.foldlM g d) := by
  induction h generalizing c d with
  | nil => exact .ok hcd
  | cons hab _ ih => exact (hstep _ _ _ _ hcd hab).bind fun _ _ => ih

end ResultsAlike

theorem Schema.checkCompatible_alike (s : Schema) (l l' : FragmentLabel) (condition enclosing : String) :
    ResultsAlike (fun _ _ => True) (s.checkCompatible l condition enclosing)
      (s.checkCompatible l' condition enclosing) := by
  refine (ResultsAlike.refl (s.resolve condition)).bind fun _ _ _ => ?_
  split
  · exact .ok trivial
  · exact .error (.label l l' _ _)

namespace Expanded

/-- The second selections are the first with other labels on fragments that have a condition. -/
inductive Relabels : List Expanded → List Expanded → Prop
  | nil : Relabels [] []
  | field {key name c sub sub' rest rest'} (h : Relabels sub sub') (hr : Relabels rest rest') :
    Relabels (field key name c sub :: rest) (field key name c sub' :: rest')
  | fragment {label label' condition? c sub sub' rest rest'} (hl : condition? = none → label = label')
    (h : Relabels sub sub') (hr : Relabels rest rest') :
    Relabels (fragment label condition? c sub :: rest) (fragment label' condition? c sub' :: rest')
  | undefined {name rest rest'} (hr : Relabels rest rest') : Relabels (undefined name :: rest) (undefined name :: rest')
  | cyclic {name condition rest rest'} (hr : Relabels rest rest') :
    Relabels (cyclic name condition :: rest) (cyclic name condition :: rest')

section Relabels

variable {selections selections' more more' : List Expanded}

theorem Relabels.append (h : Relabels selections selections') (hmore : Relabels more more') :
    Relabels (selections ++ more) (selections' ++ more') := by
  induction h with
  | nil => exact hmore
  | field h _ _ ih => exact .field h ih
  | fragment hl h _ _ ih => exact .fragment hl h ih
  | undefined _ ih => exact .undefined ih
  | cyclic _ ih => exact .cyclic ih

theorem Relabels.isEmpty_eq (h : Relabels selections selections') : selections.isEmpty = selections'.isEmpty := by
  cases h <;> rfl

theorem Relabels.levelsOf_eq (h : Relabels selections selections') : levelsOf selections = levelsOf selections' := by
  induction h with
  | nil => rfl
  | field _ _ ih ihr | fragment _ _ _ ih ihr => simp only [levelsOf, levels, ih, ihr]
  | undefined _ ihr | cyclic _ ihr => simp only [levelsOf, levels, ihr]

theorem Relabels.markConditional (h : Relabels selections selections') :
    Relabels (markConditional selections) (markConditional selections') := by
  unfold Expanded.markConditional
  split
  next =>
    cases h with
    | fragment hl hsub hr =>
      cases hr
      obtain rfl := hl rfl
      exact .fragment (fun _ => rfl) hsub .nil
  next hunmarked =>
    split
    next =>
      cases h with
      | fragment hl hsub hr =>
        cases hr
        exact absurd (by rw [hl rfl]) (hunmarked _)
    next => exact .fragment (fun _ => rfl) h .nil

end Relabels

end Expanded

/-! ## Collecting -/

namespace CollectedField

/-- The second field is the first with other labels below it. -/
structure Relabels (f f' : CollectedField) : Prop where
  key : f.key = f'.key
  name : f.name = f'.name
  scope : f.scope = f'.scope
  conditional : f.conditional = f'.conditional
  selections : Expanded.Relabels f.selections f'.selections

variable {f f' new new' : CollectedField}

theorem relabels_marked {selections selections' : List Expanded} (h : Expanded.Relabels selections selections')
    (conditional : Bool) : Expanded.Relabels (marked conditional selections) (marked conditional selections') := by
  unfold marked
  split
  · exact h.markConditional
  · exact h

theorem Relabels.mergeSelections (h : f.Relabels f') (hnew : new.Relabels new') :
    Expanded.Relabels (f.mergeSelections new) (f'.mergeSelections new') := by
  unfold CollectedField.mergeSelections
  rw [hnew.selections.isEmpty_eq, h.selections.isEmpty_eq, h.conditional, hnew.conditional]
  split
  · exact h.selections
  · split
    · exact relabels_marked hnew.selections _
    · exact (relabels_marked h.selections _).append (relabels_marked hnew.selections _)

theorem Relabels.merge (h : f.Relabels f') (hnew : new.Relabels new') : (f.merge new).Relabels (f'.merge new') where
  key := h.key
  name := h.name
  scope := h.scope
  conditional := congrArg₂ and h.conditional hnew.conditional
  selections := h.mergeSelections hnew

theorem Relabels.insert (hnew : new.Relabels new') (site : String) {fields fields' : List CollectedField}
    (h : List.Forall₂ Relabels fields fields') :
    ResultsAlike (List.Forall₂ Relabels) (new.insert site fields) (new'.insert site fields') := by
  induction h with
  | nil => exact .ok (.cons hnew .nil)
  | @cons f f' rest rest' hf hrest ih =>
    simp only [CollectedField.insert, ← hf.key, ← hnew.key, ← hf.name, ← hnew.name]
    split
    · split
      · exact .ok (.cons (hf.merge hnew) hrest)
      · exact .error (.same _)
    · exact ih.bind fun _ _ h => .ok (.cons hf h)

end CollectedField

namespace Expanded

variable {s : Schema} {site : String} {selections selections' : List Expanded}

theorem Relabels.ownFields (h : Relabels selections selections') (scope : String) (conditional : Bool) :
    List.Forall₂ CollectedField.Relabels (selections.filterMap (ownField? scope conditional))
      (selections'.filterMap (ownField? scope conditional)) := by
  induction h with
  | nil => exact .nil
  | field h _ _ ih => exact .cons ⟨rfl, rfl, rfl, rfl, h⟩ ih
  | fragment _ _ _ _ ih | undefined _ ih | cyclic _ ih => exact ih

/-- The fields of the selections themselves are alike, so with alike fragments all fields are. -/
theorem collectInto_alike {scope : String} {conditional : Bool} {fields fields' : List CollectedField}
    (h : Relabels selections selections') (hf : List.Forall₂ CollectedField.Relabels fields fields')
    (hfragments : ∀ fields fields', List.Forall₂ CollectedField.Relabels fields fields' →
      ResultsAlike (List.Forall₂ CollectedField.Relabels) (collectFragments s site scope conditional selections fields)
        (collectFragments s site scope conditional selections' fields')) :
    ResultsAlike (List.Forall₂ CollectedField.Relabels) (collectInto s site scope conditional selections fields)
      (collectInto s site scope conditional selections' fields') := by
  rw [collectInto, collectInto]
  refine (foldlM_alike (fun _ _ _ _ h hnew => hnew.insert site h) (h.ownFields scope conditional) hf).bind ?_
  exact fun fields fields' hf => hfragments fields fields' hf

theorem collectFragments_alike (h : Relabels selections selections') {scope : String} {conditional : Bool}
    {fields fields' : List CollectedField} (hf : List.Forall₂ CollectedField.Relabels fields fields') :
    ResultsAlike (List.Forall₂ CollectedField.Relabels) (collectFragments s site scope conditional selections fields)
      (collectFragments s site scope conditional selections' fields') := by
  induction h generalizing scope conditional fields fields' with
  | nil =>
    rw [collectFragments, collectFragments]
    exact .ok hf
  | field _ _ _ ih =>
    rw [collectFragments, collectFragments]
    exact ih hf
  | undefined =>
    rw [collectFragments, collectFragments]
    exact .error (.same _)
  | cyclic _ ih =>
    rw [collectFragments, collectFragments]
    refine (ResultsAlike.refl _).bind fun _ _ _ => ?_
    split
    · exact .error (.same _)
    · exact ih hf
  | fragment _ h _ ih ihr =>
    rw [collectFragments, collectFragments]
    refine (s.checkCompatible_alike _ _ _ _).bind fun _ _ _ => ?_
    split
    · exact (collectInto_alike h hf fun _ _ => ih).bind fun _ _ => ihr
    · exact (ResultsAlike.ok hf).bind fun _ _ => ihr

/-- The same is collected from selections that differ in labels. -/
theorem collect_alike (h : Relabels selections selections') :
    ResultsAlike (List.Forall₂ CollectedField.Relabels) (collect s site selections) (collect s site selections') :=
  collectInto_alike h .nil fun _ _ => collectFragments_alike h

end Expanded

/-! ## Splitting -/

namespace Branches

/-- The second branches are the first with other labels. -/
abbrev Relabels : Branches → Branches → Prop :=
  List.Forall₂ fun b b' => b.1 = b'.1 ∧ Expanded.Relabels b.2 b'.2

variable {branches branches' : Branches}

theorem relabels_isEmpty (h : Relabels branches branches') : branches.isEmpty = branches'.isEmpty := by
  cases h <;> rfl

theorem relabels_add (h : Relabels branches branches') {e e' : Expanded} (he : Expanded.Relabels [e] [e'])
    (typename : String) : Relabels (branches.add typename e) (branches'.add typename e') := by
  induction h with
  | nil => exact .cons ⟨rfl, he⟩ .nil
  | @cons b b' rest rest' hb hrest ih =>
    obtain ⟨t, fragments⟩ := b
    obtain ⟨t', fragments'⟩ := b'
    obtain ⟨rfl, hfragments⟩ : t = t' ∧ _ := hb
    simp only [add]
    split
    · exact .cons ⟨rfl, hfragments.append he⟩ hrest
    · exact .cons ⟨rfl, hfragments⟩ ih

theorem relabels_foldl_add {e e' : Expanded} (he : Expanded.Relabels [e] [e']) (types : List String)
    {branches branches' : Branches} (h : Relabels branches branches') :
    Relabels (types.foldl (fun branches t => branches.add t e) branches)
      (types.foldl (fun branches t => branches.add t e') branches') := by
  induction types generalizing branches branches' with
  | nil => exact h
  | cons t types ih => exact ih (relabels_add h he t)

theorem relabels_get (h : Relabels branches branches') (typename : String) :
    Expanded.Relabels (branches.get typename) (branches'.get typename) := by
  induction h with
  | nil => exact .nil
  | @cons b b' rest rest' hb hrest ih =>
    obtain ⟨t, fragments⟩ := b
    obtain ⟨t', fragments'⟩ := b'
    obtain ⟨rfl, hfragments⟩ : t = t' ∧ _ := hb
    by_cases ht : t = typename
    · simpa [get, ht] using hfragments
    · simpa [get, ht] using ih

theorem relabels_remove (h : Relabels branches branches') (typename : String) :
    Relabels (branches.remove typename) (branches'.remove typename) := by
  induction h with
  | nil => exact .nil
  | @cons b b' rest rest' hb hrest ih =>
    by_cases ht : b.1 = typename
    · simpa [remove, ht, ← hb.1] using ih
    · simpa [Relabels, remove, ht, ← hb.1, hb.2] using ih

end Branches

namespace Expanded

variable {s : Schema} {site : String} {selections selections' : List Expanded}

/-- Parts that differ in labels. -/
def PartsRelabel (parts parts' : List Expanded × Branches) : Prop :=
  Relabels parts.1 parts'.1 ∧ Branches.Relabels parts.2 parts'.2

theorem splitInto_alike (h : Relabels selections selections') {scope : String} {conditional : Bool}
    {branches branches' : Branches} (hb : Branches.Relabels branches branches') :
    ResultsAlike PartsRelabel (splitInto s site scope conditional selections branches)
      (splitInto s site scope conditional selections' branches') := by
  induction h generalizing scope conditional branches branches' with
  | nil =>
    rw [splitInto, splitInto]
    exact .ok ⟨.nil, hb⟩
  | field h _ _ ih =>
    rw [splitInto, splitInto]
    exact (ih hb).bind fun _ _ hparts => .ok ⟨.field h hparts.1, hparts.2⟩
  | undefined =>
    rw [splitInto, splitInto]
    exact .error (.same _)
  | cyclic _ ih =>
    rw [splitInto, splitInto]
    refine (ResultsAlike.refl _).bind fun _ _ _ => ?_
    split
    · exact .error (.same _)
    · exact ih (Branches.relabels_foldl_add (.fragment (fun _ => rfl) (.cyclic .nil) .nil) _ hb)
  | fragment _ h _ ih ihr =>
    rw [splitInto, splitInto]
    refine (s.checkCompatible_alike _ _ _ _).bind fun _ _ _ => ?_
    split
    · exact (ih hb).bind fun _ _ hinner => (ihr hinner.2).bind fun _ _ hparts =>
        .ok ⟨.fragment (fun _ => rfl) hinner.1 hparts.1, hparts.2⟩
    · exact ihr (Branches.relabels_foldl_add (.fragment (fun _ => rfl) h .nil) _ hb)

/-- Selections that differ in labels are split alike. -/
theorem split_alike (h : Relabels selections selections') :
    ResultsAlike PartsRelabel (split s site selections) (split s site selections') := splitInto_alike h List.Forall₂.nil

end Expanded

end TypedQuery
