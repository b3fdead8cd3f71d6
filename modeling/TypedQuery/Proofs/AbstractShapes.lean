/-
The shapes of interfaces and unions. Only a fragment that matches some of the
run-time types of its site, but not all, makes branches (`Unsplit`,
`Expands.branches_eq_nil_iff`), and then each run-time type has its variant
(`variants_forall₂`). The fields of the site stand first in each of them,
since the common part is met again in the same order (`Splits.selected_eq`)
and a branch has no fields of its own beside its fragments.
-/
import TypedQuery.Proofs.Linearization

namespace TypedQuery

open Generator

namespace Schema

/-- A fragment on `condition` does not tell the run-time types of `site` apart: it covers the site, or matches none of
them. -/
def Unsplit (s : Schema) (site condition : String) : Prop :=
  s.covers condition site = true ∨ ∀ R ∈ s.possibleTypes site, R ∉ s.possibleTypes condition

/-- Unions list only objects. -/
def UnionsOfObjects (s : Schema) : Prop :=
  ∀ u, .union u ∈ s.types → ∀ m ∈ u.members, ∃ o, s.find? m = some (.object o)

end Schema

namespace Document

/-! ## Fragments that are met -/

/-- A fragment on the type is among the selections, or within fragments among them whose conditions all satisfy
`covers`. A fragment without a condition is only a way to others. -/
inductive MeetsOn (d : Document) (covers : String → Prop) : List Selection → String → Prop
  | inline {t c inner rest} : MeetsOn d covers (.inline (some t) c inner :: rest) t
  | spread {name c f rest} (hf : d.fragment? name = some f) : MeetsOn d covers (.spread name c :: rest) f.condition
  | inInline {condition? c inner rest t} (hc : ∀ u ∈ condition?, covers u) (h : MeetsOn d covers inner t) :
    MeetsOn d covers (.inline condition? c inner :: rest) t
  | inSpread {name c f rest t} (hf : d.fragment? name = some f) (hc : covers f.condition)
    (h : MeetsOn d covers f.selections t) : MeetsOn d covers (.spread name c :: rest) t
  | later {selection rest t} (h : MeetsOn d covers rest t) : MeetsOn d covers (selection :: rest) t

section MeetsOn

variable {d : Document} {covers : String → Prop} {rest : List Selection} {t : String}

@[simp] theorem not_meetsOn_nil : ¬ d.MeetsOn covers [] t := by
  intro h
  cases h

@[simp] theorem meetsOn_field {alias? : Option String} {name : String} {c : Bool} {sub : List Selection} :
    d.MeetsOn covers (.field alias? name c sub :: rest) t ↔ d.MeetsOn covers rest t := by
  constructor
  · intro h
    cases h with
    | later h => exact h
  · exact .later

@[simp] theorem meetsOn_inline {condition? : Option String} {c : Bool} {inner : List Selection} :
    d.MeetsOn covers (.inline condition? c inner :: rest) t ↔
      condition? = some t ∨ ((∀ u ∈ condition?, covers u) ∧ d.MeetsOn covers inner t) ∨ d.MeetsOn covers rest t := by
  constructor
  · intro h
    cases h with
    | inline => exact .inl rfl
    | inInline hc h => exact .inr (.inl ⟨hc, h⟩)
    | later h => exact .inr (.inr h)
  · rintro (rfl | ⟨hc, h⟩ | h)
    · exact .inline
    · exact .inInline hc h
    · exact .later h

theorem meetsOn_spread {name : String} {c : Bool} {f : Fragment} (hf : d.fragment? name = some f) :
    d.MeetsOn covers (.spread name c :: rest) t ↔
      t = f.condition ∨ (covers f.condition ∧ d.MeetsOn covers f.selections t) ∨ d.MeetsOn covers rest t := by
  constructor
  · intro h
    cases h with
    | spread hf' =>
      obtain rfl := Option.some.inj (hf.symm.trans hf')
      exact .inl rfl
    | inSpread hf' hc h =>
      obtain rfl := Option.some.inj (hf.symm.trans hf')
      exact .inr (.inl ⟨hc, h⟩)
    | later h => exact .inr (.inr h)
  · rintro (rfl | ⟨hc, h⟩ | h)
    · exact .spread hf
    · exact .inSpread hf hc h
    · exact .later h

end MeetsOn

end Document

/-! ## When there are branches -/

namespace Branches

theorem add_ne_nil (branches : Branches) (t : String) (e : Expanded) : branches.add t e ≠ [] := by
  cases branches with
  | nil => simp [add]
  | cons b branches =>
    rw [add]
    split <;> simp

theorem foldl_add_eq_nil (e : Expanded) (types : List String) (branches : Branches) :
    types.foldl (fun branches t => branches.add t e) branches = [] ↔ branches = [] ∧ types = [] := by
  induction types generalizing branches with
  | nil => simp
  | cons t types ih => simp [ih, add_ne_nil]

end Branches

namespace Expanded

variable {s : Schema} {site : String}

/-- A fragment that does not cover the site makes a branch unless it matches none of its run-time types. -/
theorem routed_eq_nil_iff {condition : String} (hcov : ¬ s.covers condition site = true) (e : Expanded)
    (branches : Branches) :
    (matchedTypes s condition site).foldl (fun branches t => branches.add t e) branches = [] ↔
      branches = [] ∧ s.Unsplit site condition := by
  rw [Branches.foldl_add_eq_nil, matchedTypes, List.filter_eq_nil_iff, Schema.Unsplit]
  simp [hcov]

theorem splitInto_fragment {scope : String} {conditional c : Bool} {label : FragmentLabel} {condition? : Option String}
    {sub rest common : List Expanded} {branches branches' : Branches}
    (h : splitInto s site scope conditional (fragment label condition? c sub :: rest) branches =
      .ok (common, branches')) :
    (s.covers (condition?.getD scope) site = true ∧ ∃ inner branches₁ common',
      splitInto s site (condition?.getD scope) (conditional || c) sub branches = .ok (inner, branches₁) ∧
      splitInto s site scope conditional rest branches₁ = .ok (common', branches')) ∨
    (¬ s.covers (condition?.getD scope) site = true ∧ ∃ e common', splitInto s site scope conditional rest
      ((matchedTypes s (condition?.getD scope) site).foldl (fun branches t => branches.add t e) branches) =
        .ok (common', branches')) := by
  simp only [splitInto] at h
  obtain ⟨_, -, h⟩ := bind_eq_ok.1 h
  split at h
  next hcov =>
    obtain ⟨⟨inner, branches₁⟩, hin, h⟩ := bind_eq_ok.1 h
    obtain ⟨⟨common', branches₂⟩, hrest, h⟩ := bind_eq_ok.1 h
    cases h
    exact .inl ⟨hcov, inner, branches₁, common', hin, hrest⟩
  next hcov => exact .inr ⟨hcov, _, common, h⟩

end Expanded

namespace Document

variable {d : Document} {s : Schema} {site : String} {selections : List Selection} {expanded : List Expanded}

/-- **Splitting makes branches just for the fragments that tell run-time types apart**, among those that are met
through fragments that cover the site. -/
theorem Expands.branches_eq_nil_iff (h : d.Expands selections expanded) {scope : String} {conditional : Bool}
    {branches branches' : Branches} {common : List Expanded} (hs : s.covers scope site = true)
    (hsplit : Expanded.splitInto s site scope conditional expanded branches = .ok (common, branches')) :
    branches' = [] ↔
      branches = [] ∧ ∀ t, d.MeetsOn (s.covers · site = true) selections t → s.Unsplit site t := by
  induction h generalizing scope conditional branches branches' common with
  | nil =>
    simp only [Expanded.splitInto, Except.ok.injEq, Prod.mk.injEq] at hsplit
    obtain ⟨-, rfl⟩ := hsplit
    simp
  | field _ _ _ ihr =>
    simp only [Expanded.splitInto] at hsplit
    obtain ⟨⟨common₁, branches₁⟩, hrest, he⟩ := bind_eq_ok.1 hsplit
    cases he
    simpa using ihr hs hrest
  | @inline condition? c sub expanded rest more _ _ ih ihr =>
    rcases Expanded.splitInto_fragment hsplit with ⟨hcov, _, _, _, hin, hrest⟩ | ⟨hcov, _, _, hrest⟩
    · have hall : ∀ u, condition? = some u → s.covers u site = true := by
        rintro u rfl
        exact hcov
      have hhead : ∀ u, condition? = some u → s.Unsplit site u := fun u hu => .inl (hall u hu)
      rw [ihr hs hrest, ih hcov hin, and_assoc]
      simp [or_imp, forall_and, and_iff_right hhead, and_iff_right hall]
    · cases condition? with
      | none => exact absurd hs hcov
      | some u =>
        rw [ihr hs hrest, Expanded.routed_eq_nil_iff hcov, and_assoc]
        simp only [Option.getD_some] at hcov
        simp [or_imp, forall_and, hcov]
  | @spread name c f expanded rest more hf _ _ ih ihr =>
    rcases Expanded.splitInto_fragment hsplit with ⟨hcov, _, _, _, hin, hrest⟩ | ⟨hcov, _, _, hrest⟩
    · have hhead : s.Unsplit site f.condition := .inl hcov
      simp only [Option.getD_some] at hcov
      rw [ihr hs hrest, ih hcov hin, and_assoc]
      simp [meetsOn_spread hf, or_imp, forall_and, hhead, hcov]
    · rw [ihr hs hrest, Expanded.routed_eq_nil_iff hcov, and_assoc]
      simp only [Option.getD_some] at hcov
      simp [meetsOn_spread hf, or_imp, forall_and, hcov]
  | undefined => simp [Expanded.splitInto] at hsplit
  | @cyclic name c f rest more hf _ ihr =>
    simp only [Expanded.splitInto] at hsplit
    obtain ⟨_, -, hsplit⟩ := bind_eq_ok.1 hsplit
    split at hsplit
    next => cases hsplit
    next hcov =>
      rw [ihr hs hsplit, Expanded.routed_eq_nil_iff hcov, and_assoc]
      simp [meetsOn_spread hf, or_imp, forall_and, hcov]

end Document

/-! ## The order of the common part -/

namespace Expanded

theorem selected_ownFields (scope scope' : String) (c c' : Bool) (selections : List Expanded) :
    (ownFields scope c selections).map (fun f => (f.key, f.name)) =
      (ownFields scope' c' selections).map fun f => (f.key, f.name) := by
  simp only [ownFields, List.map_filterMap]
  congr 1
  funext e
  cases e <;> rfl

theorem fragmentFields_append (applies : String → Bool) (scope : String) (c : Bool) (more : List Expanded) :
    ∀ selections, fragmentFields applies scope c (selections ++ more) =
      fragmentFields applies scope c selections ++ fragmentFields applies scope c more
  | [] => by simp [fragmentFields]
  | fragment _ _ _ _ :: rest => by simp [fragmentFields, fragmentFields_append applies scope c more rest]
  | field _ _ _ _ :: rest | undefined _ :: rest | cyclic _ _ :: rest => by
    simpa [fragmentFields] using fragmentFields_append applies scope c more rest

variable {s : Schema} {site : String} {selections common : List Expanded} {branches branches' : Branches}

/-- What stays in common is met in one order wherever the fragments that cover the site apply. -/
theorem Splits.selected_eq {scope : String} {conditional : Bool}
    (h : Splits s site scope conditional selections branches common branches') {applies applies' : String → Bool}
    (ha : ∀ t, s.covers t site = true → applies t = true) (ha' : ∀ t, s.covers t site = true → applies' t = true)
    (scope₁ scope₂ : String) (c₁ c₂ : Bool) :
    (fragmentFields applies scope₁ c₁ common).map (fun f => (f.key, f.name)) =
      (fragmentFields applies' scope₂ c₂ common).map fun f => (f.key, f.name) := by
  induction h generalizing scope₁ scope₂ c₁ c₂ with
  | nil => simp [fragmentFields]
  | field _ ih =>
    rw [fragmentFields, fragmentFields]
    exact ih scope₁ scope₂ c₁ c₂
  | cyclic _ ih | routed _ _ ih => exact ih scope₁ scope₂ c₁ c₂
  | @kept scope _ _ condition? c _ _ _ _ _ _ _ hcov _ _ ihin ihrest =>
    simp [fragmentFields, ha _ hcov, ha' _ hcov, ihrest scope₁ scope₂ c₁ c₂,
      ihin (condition?.getD scope) (condition?.getD scope) (c₁ || c) (c₂ || c),
      selected_ownFields (condition?.getD scope) (condition?.getD scope) (c₁ || c) (c₂ || c)]

/-- A branch holds fragments only. -/
theorem Splits.fragment_of_mem_get {scope : String} {conditional : Bool}
    (h : Splits s site scope conditional selections branches common branches') {R : String}
    (hb : ∀ e ∈ branches.get R, ∃ condition? c sub, e = fragment .inline condition? c sub) :
    ∀ e ∈ branches'.get R, ∃ condition? c sub, e = fragment .inline condition? c sub := by
  induction h with
  | nil => exact hb
  | field _ ih => exact ih hb
  | kept _ _ _ ihin ihrest => exact ihrest (ihin hb)
  | cyclic _ ih | routed _ _ ih =>
    exact ih (Branches.forall_mem_get_foldl_add _ hb fun _ => ⟨_, _, _, rfl⟩)

theorem ownFields_branch (h : split s site selections = .ok (common, branches)) {R : String} {branch : List Expanded}
    (hb : ∀ e ∈ branch, e ∈ branches.get R) (scope : String) (c : Bool) : ownFields scope c branch = [] := by
  refine List.filterMap_eq_nil_iff.2 fun e he => ?_
  obtain ⟨_, _, _, rfl⟩ := (splits_of_split h).fragment_of_mem_get (by simp [Branches.get]) e (hb e he)
  rfl

/-- **The common part comes first.** What is collected from it on the site is the beginning of what is collected on an
object of the site from it and a branch. -/
theorem selected_prefix (h : split s site selections = .ok (common, branches)) {R : String} {o : ObjectDefinition}
    (ho : s.find? R = some (.object o)) (hR : R ∈ s.possibleTypes site) {branch : List Expanded}
    (hb : ∀ e ∈ branch, e ∈ branches.get R) {fields fields' : List CollectedField}
    (hc : collect s site common = .ok fields) (hc' : collect s R (common ++ branch) = .ok fields') :
    fields.map (fun f => (f.key, f.name)) <+: fields'.map fun f => (f.key, f.name) := by
  have hcov : ∀ t, s.covers t site = true → s.covers t R = true := fun t ht =>
    (Schema.covers_object ho).2 (Schema.mem_possibleTypes_of_covers ht hR)
  have hown : ownFields R false (common ++ branch) = ownFields R false common := by
    rw [ownFields, List.filterMap_append, ← ownFields, ← ownFields, ownFields_branch h hb, List.append_nil]
  have hin : (fieldsIn (s.covers · R) R false (common ++ branch)).map (fun f => (f.key, f.name)) =
      (fieldsIn (s.covers · site) site false common).map (fun f => (f.key, f.name)) ++
        (fragmentFields (s.covers · R) R false branch).map fun f => (f.key, f.name) := by
    simp only [fieldsIn, hown, fragmentFields_append, List.map_append, List.append_assoc]
    rw [selected_ownFields R site false false, (splits_of_split h).selected_eq hcov (fun _ => id) R site false false]
  rw [selected_of_collect hc, selected_of_collect hc', hin, List.eraseDups_append]
  exact List.prefix_append _ _

end Expanded

/-! ## Variants -/

/-- The property by which the variants are told apart, which the server never leaves out. -/
def Shape.HasTypename (shape : Shape) : Prop :=
  ∃ q ∈ shape.properties, q.name = "__typename" ∧ q.fieldName = "__typename" ∧ q.type.isNullable = false

namespace Schema

variable {s : Schema}

/-- The type `t` is that of the declaration, around some base. -/
def TypedAs (declaration : FieldDefinition) (t : PropertyType) : Prop :=
  ∃ base, t = .ofTypeRef declaration.type base

theorem establishes_typedAs (s : Schema) (levels : Nat) :
    Establishes (fun _ => True) (fun _ declaration _ t => TypedAs declaration t) (s.fieldType levels) := by
  intro f selections p t p' _ h
  have hgrows := (fieldType_grows levels f selections).runs h
  obtain ⟨resolve, hover, -⟩ := s.fieldType_eq_over levels
  rw [hover] at h
  obtain ⟨base, -, ht⟩ := fieldTypeOver_runs h
  exact ⟨trivial, hgrows, base, ht⟩

/-- What is collected on the object `o` from the selections, and the properties of the shape kept for it. -/
def ObjectTyped (s : Schema) (r : Registry) (o : ObjectDefinition) (selections : List Expanded) (n : String) : Prop :=
  ∃ fields shape, Expanded.collect s o.name selections = .ok fields ∧ r.lookup? n = some shape ∧
    List.Forall₂ (s.IsProperty o.fields fun declaration _ t => TypedAs declaration t) fields shape.properties

theorem objectTyped_mono ⦃r r' : Registry⦄ ⦃o : ObjectDefinition⦄ ⦃selections : List Expanded⦄ ⦃n : String⦄
    (hext : r'.Extends r) (h : s.ObjectTyped r o selections n) : s.ObjectTyped r' o selections n := by
  obtain ⟨fields, shape, hc, hl, hall⟩ := h
  exact ⟨fields, shape, hc, hext.lookup? hl, hall⟩

theorem objectShape_typed {levels : Nat} {o : ObjectDefinition} {selections : List Expanded} {name? : Option String}
    {n : String} {p p' : Progress} (h : Runs (s.objectShape (s.fieldType levels) o selections name?) p n p') :
    s.ObjectTyped p'.registry o selections n := by
  obtain ⟨-, collected, qs, p₁, hc, -, -, hall, hreg⟩ :=
    objectShape_runs (fun _ _ _ _ _ _ => id) (establishes_typedAs s levels) trivial h
  exact ⟨collected, _, hc, (register_runs hreg).1.held, hall⟩

/-- The variant is made of an object from the common part and what is in the branch of its type, or in the branch of
nothing: a type that is possible twice has its branch in the first place only. -/
def MadeFrom (s : Schema) (r : Registry) (common : List Expanded) (branches : Branches) (v : Variant) : Prop :=
  ∃ o branch, s.find? v.typename = some (.object o) ∧ (∀ e ∈ branch, e ∈ branches.get v.typename) ∧
    s.ObjectTyped r o (common ++ branch) v.shapeName

theorem MadeFrom.mono {r r' : Registry} {common : List Expanded} {branches : Branches} {v : Variant}
    (h : s.MadeFrom r common branches v) (hext : r'.Extends r) : s.MadeFrom r' common branches v := by
  obtain ⟨o, branch, ho, hbranch, hheld⟩ := h
  exact ⟨o, branch, ho, hbranch, objectTyped_mono hext hheld⟩

theorem MadeFrom.of_remove {r : Registry} {common : List Expanded} {branches : Branches} {t : String} {v : Variant}
    (h : s.MadeFrom r common (branches.remove t) v) : s.MadeFrom r common branches v := by
  obtain ⟨o, branch, ho, hbranch, hheld⟩ := h
  refine ⟨o, branch, ho, fun e he => ?_, hheld⟩
  have hin := hbranch e he
  rw [Branches.get_remove] at hin
  split at hin
  next => cases hin
  next => exact hin

/-- Where all run-time types are objects and something is selected on each, the variants stand beside the types. -/
theorem variants_forall₂ {levels : Nat} {common : List Expanded} (hne : common ≠ []) {types : List String}
    {branches : Branches} {p p' : Progress} {vs : List Variant} (hobj : ∀ t ∈ types, ∃ o, s.find? t = some (.object o))
    (h : Runs (s.variants (s.fieldType levels) common branches types) p vs p') :
    List.Forall₂ (fun t v => v.typename = t ∧ s.MadeFrom p'.registry common branches v) types vs := by
  replace h := variantRuns_of_runs h
  induction h with
  | nil => exact .nil
  | passed hno _ _ =>
    obtain ⟨o, ho⟩ := hobj _ List.mem_cons_self
    exact absurd (List.append_eq_nil_iff.1 (hno o ho)).1 hne
  | @made branches t types o n p p₁ vs p' ho _ hr hrest ih =>
    have hmade : s.MadeFrom p'.registry common branches ⟨t, n⟩ :=
      ⟨o, _, ho, fun e => id, objectTyped_mono (hrest.grows (fieldType_grows levels)).registry (objectShape_typed hr)⟩
    have hothers := ih fun u hu => hobj u (List.mem_cons_of_mem _ hu)
    exact .cons ⟨rfl, hmade⟩ (hothers.imp fun _ _ hv => ⟨hv.1, hv.2.of_remove⟩)

/-- A key `__typename` that is collected from an occurrence that is not conditional gives a property that is not
nullable. -/
theorem hasTypename_of_occurs {site : String} {selections : List Expanded} {fields : List CollectedField}
    {declared : List FieldDefinition} {shape : Shape} {sub : List Expanded}
    (hc : Expanded.collect s site selections = .ok fields)
    (hocc : Expanded.Occurs (s.covers · site = true) selections "__typename" "__typename" false sub)
    (hall : List.Forall₂ (s.IsProperty declared fun declaration _ t => TypedAs declaration t) fields shape.properties) :
    shape.HasTypename := by
  obtain ⟨f, hf, hkey, hname⟩ := Expanded.exists_collected_of_occurs hc hocc
  have hcond : f.conditional = false := by
    refine Bool.eq_false_iff.2 fun htrue => ?_
    exact Bool.false_ne_true ((Expanded.conditional_iff_of_collected hc hf).1 htrue _ _ _ (hkey ▸ hocc))
  obtain ⟨q, hq, declaration, t, hdecl, ⟨base, rfl⟩, rfl⟩ := exists_of_forall₂_left hall hf
  have hdeclared : declaration = typenameField := by
    rw [declaration?, if_pos (show f.name = typenameField.name from hname)] at hdecl
    exact (Option.some.inj hdecl).symm
  subst hdeclared
  exact ⟨_, hq, hkey, hname, by simp [hcond, typenameField, PropertyType.ofTypeRef, PropertyType.ofLayers,
    PropertyType.isNullable]⟩

/-- The shape of a variant starts with the properties of its site, the key that tells it from the others among
them. -/
def StartsAs (r : Registry) (shape : Shape) (v : Variant) : Prop :=
  ∃ shape', r.lookup? v.shapeName = some shape' ∧ shape'.HasTypename ∧
    shape.properties.map (fun q => (q.name, q.fieldName)) <+: shape'.properties.map fun q => (q.name, q.fieldName)

/-- The properties of a site come first in each of its variants. -/
theorem startsAs_of_madeFrom {site : String} {selections common : List Expanded} {branches : Branches}
    {fields : List CollectedField} {declared : List FieldDefinition} {r : Registry} {shape : Shape} {v : Variant}
    (hsplit : Expanded.split s site selections = .ok (common, branches))
    (hc : Expanded.collect s site common = .ok fields) (htypename : returnsTypename fields = true)
    (hall : List.Forall₂ (s.IsProperty declared fun declaration _ t => TypedAs declaration t) fields shape.properties)
    (hR : v.typename ∈ s.possibleTypes site) (h : s.MadeFrom r common branches v) : StartsAs r shape v := by
  obtain ⟨o, branch, ho, hbranch, fields', shape', hc', hl, hall'⟩ := h
  obtain ⟨sub, hocc⟩ := occurs_of_returnsTypename hc htypename
  rw [show o.name = v.typename from find?_name ho] at hc'
  have hcov : ∀ t, s.covers t site = true → s.covers t v.typename = true := fun t ht =>
    (covers_object ho).2 (mem_possibleTypes_of_covers ht hR)
  have hocc' : Expanded.Occurs (s.covers · v.typename = true) (common ++ branch) _ _ false sub :=
    Expanded.occurs_append.2 (.inl (hocc.imp hcov))
  refine ⟨shape', hl, hasTypename_of_occurs hc' hocc' hall', ?_⟩
  rw [properties_eq_collected hall, properties_eq_collected hall']
  exact Expanded.selected_prefix hsplit ho hR hbranch hc hc'

/-- **The structure of interface and union shapes.** There are no variants if and only if each fragment that is met
through fragments that cover the site covers it, too, or matches none of its run-time types. Else the variants are
the run-time types in their order, and each starts with the properties of the site, `__typename` among them. -/
theorem abstractShape_structure (hs : s.Distinct) (hu : s.UnionsOfObjects) {levels : Nat} {site : TypeDefinition}
    {expanded : List Expanded} {name? : Option String} {n : String} {p p' : Progress}
    (h : Runs (s.abstractShape (s.fieldType levels) site expanded name?) p n p') :
    ∃ shape, p'.registry.lookup? n = some shape ∧
      (∀ (d : Document) (selections : List Selection), d.Expands selections expanded → (shape.variants = [] ↔
        ∀ t, d.MeetsOn (s.covers · site.name = true) selections t → s.Unsplit site.name t)) ∧
      (shape.variants ≠ [] → shape.variants.map (·.typename) = s.possibleTypes site.name ∧ shape.HasTypename ∧
        ∀ v ∈ shape.variants, StartsAs p'.registry shape v) := by
  obtain ⟨-, common, branches, qs, vs, p₁, p₂, hsplit, hqs, hvariants, hreg⟩ := abstractShape_parts h
  obtain ⟨-, -, fields, hc, hall⟩ :=
    properties_runs (fun _ _ _ _ _ _ => id) (establishes_typedAs s levels) trivial hqs
  have hkeeps := (register_runs hreg).1
  refine ⟨_, hkeeps.held, ?_⟩
  rw [variants_of_abstractKind site.kind vs rfl]
  have hbranches : ∀ (d : Document) (selections : List Selection), d.Expands selections expanded →
      (branches = [] ↔ ∀ t, d.MeetsOn (s.covers · site.name = true) selections t → s.Unsplit site.name t) := by
    intro d selections hexp
    simpa using hexp.branches_eq_nil_iff (s.covers_refl site.name) hsplit
  rcases hvariants with ⟨hempty, rfl, rfl⟩ | ⟨hne, collected, hc', htypename, hvs⟩
  · refine ⟨fun d selections hexp => ?_, fun hvs => absurd rfl hvs⟩
    simp [← hbranches d selections hexp, hempty]
  obtain rfl : fields = collected := Except.ok.inj (hc.symm.trans hc')
  have hobj : ∀ R ∈ s.possibleTypes site.name, ∃ o, s.find? R = some (.object o) := fun R hR =>
    object_of_mem_possibleTypes hs hu hR
  have hmade := variants_forall₂ (ne_nil_of_returnsTypename hc htypename) hobj hvs
  have hnames : vs.map (·.typename) = s.possibleTypes site.name := by
    rw [← List.forall₂_eq_eq_eq, List.forall₂_map_left_iff]
    exact hmade.flip.imp fun _ _ hv => hv.1
  obtain ⟨sub, hocc⟩ := occurs_of_returnsTypename hc htypename
  refine ⟨fun d selections hexp => ?_, fun _ => ⟨hnames, hasTypename_of_occurs hc hocc hall, fun v hv => ?_⟩⟩
  · -- without run-time types nothing is told apart, so there would be no branches either
    rw [← hbranches d selections hexp]
    refine ⟨fun hnil => ?_, fun hnil => absurd hnil hne⟩
    have hnone : s.possibleTypes site.name = [] := by simpa [hnil] using hnames.symm
    exact (hbranches d selections hexp).2 fun t _ => .inr (by simp [hnone])
  · obtain ⟨R, hR, rfl, hfrom⟩ := exists_of_forall₂_right hmade hv
    exact startsAs_of_madeFrom hsplit hc htypename hall hR (hfrom.mono hkeeps.extends)

theorem pets_unionsOfObjects : pets.UnionsOfObjects := by
  intro u hu
  simp only [pets, List.mem_cons, List.not_mem_nil, reduceCtorEq, TypeDefinition.union.injEq, false_or, or_false] at hu
  subst hu
  rintro m (_ | ⟨_, _ | ⟨_, ⟨⟩⟩⟩)
  · exact ⟨_, rfl⟩
  · exact ⟨_, rfl⟩

theorem pet_structure :
    ∃ p', Runs (pets.abstractShape (pets.fieldType 1) (.union ⟨"Pet", none, ["Dog", "Cat"]⟩)
        (barks.expand petSelections) none) .start "Pet" p' ∧
      ∃ shape, p'.registry.lookup? "Pet" = some shape ∧ shape.variants.map (·.typename) = ["Dog", "Cat"] ∧
        shape.HasTypename ∧ ∀ v ∈ shape.variants, StartsAs p'.registry shape v := by
  have hrun : Runs (pets.abstractShape (pets.fieldType 1) (.union ⟨"Pet", none, ["Dog", "Cat"]⟩)
      (barks.expand petSelections) none) .start "Pet" _ := runs_of_outcome (by cbv)
  obtain ⟨shape, hl, hempty, hall⟩ := abstractShape_structure pets_distinct pets_unionsOfObjects hrun
  have hmeets : barks.MeetsOn (pets.covers · "Pet" = true) petSelections "Dog" := by
    have hnamed : ∀ t ∈ some "Named", pets.covers t "Pet" = true := by
      rintro t ⟨⟩
      decide
    exact .later (.inInline hnamed (.later ((Document.meetsOn_spread rfl).2 (.inl rfl))))
  have hsplits : ¬ pets.Unsplit "Pet" "Dog" := by
    unfold Unsplit
    decide
  have hne : shape.variants ≠ [] := fun hnil =>
    hsplits ((hempty barks petSelections (Document.expand_expands _ _)).1 hnil "Dog" hmeets)
  exact ⟨_, hrun, shape, hl, hall hne⟩

end Schema

end TypedQuery
