/-
Where selections do not fit the type they are generated on. A document is
valid if each field exists on the type it is written in and each fragment
there has a run-time type in common with it. But what is selected below a
field of an interface is generated again on each run-time type, which may
declare the field with a narrower type: a fragment may not fit that one
(`befriended_misfit`). `Document.valid` therefore has a parameter, the types
on whose declaration of a field the selections below are to be valid. With
the type itself that is validity as written; with all types that have a
run-time type in common with it, nothing ever misfits
(`valid_selections_fit`). Where no type narrows a field, the first is enough
for the second (`Document.valid_near`).
-/
import Mathlib
import TypedQuery.Proofs.Descent
import TypedQuery.Proofs.Execution
import TypedQuery.Proofs.Failures

namespace TypedQuery

open Generator

namespace Schema

/-- The declaration of a field that selections on `type` may select. -/
def selectable? (s : Schema) (type name : String) : Option FieldDefinition :=
  if name = typenameField.name then some typenameField else (s.fieldsOf type).find? (·.name = name)

/-- The type itself, and the types that have a run-time type in common with it. -/
def near (s : Schema) (type : String) : List String :=
  type :: (s.types.map (·.name)).filter (s.overlap · type)

/-- Each object declares the fields of the interfaces that it implements. -/
structure Implements (s : Schema) : Prop where
  distinct : s.Distinct
  declares : ∀ o, .object o ∈ s.types → ∀ i ∈ o.interfaces, ∀ t, s.find? i = some (.interface t) →
    ∀ f ∈ t.fields, ∃ g ∈ o.fields, g.name = f.name

end Schema

mutual

/-- A selection written in `type` is valid: a field exists on the type, and what is selected below
it is valid on the type that each type in `like type` declares for the field; the condition of a
fragment has a run-time type in common with the type. -/
def Selection.valid (s : Schema) (d : Document) (like : String → List String) : Selection → String → Bool
  | .field _ name _ sub, type => (s.selectable? type name).isSome &&
      (like type).all fun other => (s.selectable? other name).all fun f => validAll s d like sub f.type.baseName
  | .inline condition? _ sub, type =>
      condition?.all (s.overlap · type) && validAll s d like sub (condition?.getD type)
  | .spread name _, type => (d.fragment? name).all fun f => s.overlap f.condition type

def Selection.validAll (s : Schema) (d : Document) (like : String → List String) : List Selection → String → Bool
  | [], _ => true
  | selection :: rest, type => selection.valid s d like type && validAll s d like rest type

end

/-- Operations are valid on their root types, fragments on their conditions. -/
def Document.valid (d : Document) (s : Schema) (like : String → List String) : Bool :=
  (d.operations.all fun op => Selection.validAll s d like op.selections (s.rootType op.kind)) &&
    d.fragments.all fun f => Selection.validAll s d like f.selections f.condition

/-- Errors about a selection that does not fit the type it is generated on. -/
def GenerationError.isMisfit : GenerationError → Bool
  | .unknownField _ _ | .incompatibleFragment _ _ _ => true
  | _ => false

/-! ## Types in common -/

namespace Schema

variable {s : Schema}

theorem overlap_iff {a b : String} : s.overlap a b = true ↔ ∃ R ∈ s.possibleTypes a, R ∈ s.possibleTypes b := by
  simp [overlap]

theorem mem_near {other type : String} : other ∈ s.near type ↔ other = type ∨ s.overlap other type = true := by
  simp only [near, List.mem_cons, List.mem_filter]
  refine or_congr_right ⟨And.right, fun h => ⟨?_, h⟩⟩
  obtain ⟨R, hR, -⟩ := overlap_iff.1 h
  obtain ⟨t, ht, -⟩ := composite_of_mem_possibleTypes hR
  exact List.mem_map.2 ⟨t, mem_of_find? ht, find?_name ht⟩

theorem near_of_mem {a b R : String} (ha : R ∈ s.possibleTypes a) (hb : R ∈ s.possibleTypes b) : a ∈ s.near b :=
  mem_near.2 (.inr (overlap_iff.2 ⟨R, ha, hb⟩))

/-- Types whose fragments apply to all of a site are near each other. -/
theorem near_of_covers {a b site : String} (ha : s.covers a site = true) (hb : s.covers b site = true) :
    a ∈ s.near b := by
  by_cases hnone : s.possibleTypes site = []
  · simp only [covers, hnone, List.isEmpty_nil, Bool.not_true, Bool.false_and, Bool.or_false,
      decide_eq_true_eq] at ha hb
    exact mem_near.2 (.inl (ha.trans hb.symm))
  · obtain ⟨R, rest, hR⟩ := List.exists_cons_of_ne_nil hnone
    have hmem : R ∈ s.possibleTypes site := by simp [hR]
    exact near_of_mem (mem_possibleTypes_of_covers ha hmem) (mem_possibleTypes_of_covers hb hmem)

/-- A fragment whose condition is near the type it stands in is compatible with it. -/
theorem isMisfit_of_checkCompatible {label : FragmentLabel} {condition type : String} {e : GenerationError}
    (hnear : condition ∈ s.near type) (h : s.checkCompatible label condition type = .error e) :
    e.isMisfit = false := by
  rcases bind_eq_error.1 h with h | ⟨_, -, h⟩
  · rw [resolve_error h]
    rfl
  · have hcompatible : (condition = type || s.overlap condition type) = true := by
      simpa using mem_near.1 hnear
    rw [if_pos hcompatible] at h
    cases h

/-- A run-time type declares what any type declares that it is a run-time type of. -/
theorem Implements.selectable? (hs : s.Implements) {type R name : String} (hR : R ∈ s.possibleTypes type)
    {f : FieldDefinition} (hf : s.selectable? type name = some f) : ∃ g, s.selectable? R name = some g := by
  unfold Schema.selectable? at hf ⊢
  split
  next => exact ⟨_, rfl⟩
  next hname =>
    rw [if_neg hname] at hf
    obtain ⟨t, ht, hc⟩ := composite_of_mem_possibleTypes hR
    cases t with
    | object o =>
      rw [possibleTypes_object ht, List.mem_singleton] at hR
      exact ⟨f, hR ▸ hf⟩
    | interface i =>
      obtain ⟨o, ho, hi, rfl⟩ := (mem_possibleTypes_interface ht).1 hR
      rw [fieldsOf_eq ht] at hf
      obtain ⟨g, hg, hgname⟩ := hs.declares o ho type hi i ht f (List.mem_of_find?_eq_some hf)
      have hfname : f.name = name := by simpa using List.find?_some hf
      have hfields : s.fieldsOf o.name = o.fields := fieldsOf_eq (t := .object o) (hs.distinct.find?_of_mem ho)
      rw [hfields, ← Option.isSome_iff_exists, List.find?_isSome]
      exact ⟨g, hg, by simp [hgname, hfname]⟩
    | union u =>
      rw [fieldsOf_eq ht] at hf
      cases hf
    | scalar | enumeration | input => cases hc

end Schema

/-! ## Selections that fit -/

mutual

/-- An expanded selection fits `type`: as in `Selection.valid`, with all types near it. -/
def Expanded.Fits (s : Schema) : Expanded → String → Prop
  | .field _ name _ sub, type => (∃ f, s.selectable? type name = some f) ∧
      ∀ other ∈ s.near type, ∀ f, s.selectable? other name = some f → FitsAll s sub f.type.baseName
  | .fragment _ condition? _ sub, type =>
      condition?.getD type ∈ s.near type ∧ FitsAll s sub (condition?.getD type)
  | .cyclic _ condition, type => condition ∈ s.near type
  | .undefined _, _ => True

def Expanded.FitsAll (s : Schema) : List Expanded → String → Prop
  | [], _ => True
  | e :: rest, type => e.Fits s type ∧ FitsAll s rest type

end

namespace Expanded

variable {s : Schema}

theorem fitsAll_iff {selections : List Expanded} {type : String} :
    FitsAll s selections type ↔ ∀ e ∈ selections, e.Fits s type := by
  induction selections with
  | nil => simp [FitsAll]
  | cons e rest ih => simp [FitsAll, ih]

theorem fits_field {key name type : String} {c : Bool} {sub : List Expanded} :
    (field key name c sub).Fits s type ↔ (∃ f, s.selectable? type name = some f) ∧
      ∀ other ∈ s.near type, ∀ f, s.selectable? other name = some f → ∀ e ∈ sub, e.Fits s f.type.baseName := by
  simp only [Fits, fitsAll_iff]

theorem fits_fragment {label : FragmentLabel} {condition? : Option String} {c : Bool} {sub : List Expanded}
    {type : String} : (fragment label condition? c sub).Fits s type ↔
      condition?.getD type ∈ s.near type ∧ ∀ e ∈ sub, e.Fits s (condition?.getD type) := by
  simp only [Fits, fitsAll_iff]

theorem fits_marked {selections : List Expanded} {type : String} (c : Bool) :
    (∀ e ∈ CollectedField.marked c selections, e.Fits s type) ↔ ∀ e ∈ selections, e.Fits s type := by
  unfold CollectedField.marked markConditional
  split
  · split
    · rfl
    · simp [fits_fragment, Schema.mem_near]
  · rfl

/-- A field that occurs fits the type it was selected on. -/
theorem fits_of_mem_fragmentFields {applies : String → Bool} {o : CollectedField} :
    ∀ {selections : List Expanded} {scope : String} {conditional : Bool}, (∀ e ∈ selections, e.Fits s scope) →
      o ∈ fragmentFields applies scope conditional selections →
      ∃ c, (field o.key o.name c o.selections).Fits s o.scope
  | [], _, _, _, ho => by simp [fragmentFields] at ho
  | fragment label condition? c sub :: rest, scope, conditional, hfit, ho => by
    obtain ⟨hhead, hrest⟩ := List.forall_mem_cons.1 hfit
    obtain ⟨-, hsub⟩ := fits_fragment.1 hhead
    rcases mem_fragmentFields_fragment.1 ho with ⟨-, ho⟩ | ho
    · rcases List.mem_append.1 ho with ho | ho
      · obtain ⟨c', hmem, hscope, -⟩ := mem_ownFields.1 ho
        exact ⟨c', hscope ▸ hsub _ hmem⟩
      · exact fits_of_mem_fragmentFields hsub ho
    · exact fits_of_mem_fragmentFields hrest ho
  | field _ _ _ _ :: rest, scope, conditional, hfit, ho
  | undefined _ :: rest, scope, conditional, hfit, ho
  | cyclic _ _ :: rest, scope, conditional, hfit, ho => by
    rw [fragmentFields] at ho
    exact fits_of_mem_fragmentFields (List.forall_mem_cons.1 hfit).2 ho

theorem fits_of_mem_fieldsIn {applies : String → Bool} {o : CollectedField} {selections : List Expanded}
    {scope : String} {conditional : Bool} (hfit : ∀ e ∈ selections, e.Fits s scope)
    (ho : o ∈ fieldsIn applies scope conditional selections) :
    ∃ c, (field o.key o.name c o.selections).Fits s o.scope := by
  rcases List.mem_append.1 ho with ho | ho
  · obtain ⟨c, hmem, hscope, -⟩ := mem_ownFields.1 ho
    exact ⟨c, hscope ▸ hfit _ hmem⟩
  · exact fits_of_mem_fragmentFields hfit ho

/-- A field that fits a type fits its run-time types. -/
theorem fits_field_object (hs : s.Implements) {type R : String} {o : ObjectDefinition}
    (ho : s.find? R = some (.object o)) (hR : R ∈ s.possibleTypes type) {key name : String} {c : Bool}
    {sub : List Expanded} (h : (field key name c sub).Fits s type) : (field key name c sub).Fits s R := by
  obtain ⟨⟨f, hf⟩, hbelow⟩ := fits_field.1 h
  have hself : R ∈ s.possibleTypes R := by simp [Schema.possibleTypes_object ho]
  refine fits_field.2 ⟨hs.selectable? hR hf, fun other hother => hbelow other ?_⟩
  rcases Schema.mem_near.1 hother with rfl | hover
  · exact Schema.near_of_mem hself hR
  · obtain ⟨R', hR', hmem⟩ := Schema.overlap_iff.1 hover
    rw [Schema.possibleTypes_object ho, List.mem_singleton] at hmem
    exact Schema.near_of_mem (hmem ▸ hR') hR

/-- Every branch fits its run-time type. -/
def BranchesFit (s : Schema) (branches : Branches) : Prop :=
  ∀ R o, s.find? R = some (.object o) → ∀ e ∈ branches.get R, e.Fits s R

theorem BranchesFit.foldl_add {e : Expanded} (types : List String) {branches : Branches}
    (hb : BranchesFit s branches)
    (he : ∀ R ∈ types, ∀ o, s.find? R = some (.object o) → e.Fits s R) :
    BranchesFit s (types.foldl (fun branches t => branches.add t e) branches) :=
  fun R o ho => Branches.forall_mem_get_foldl_add types (hb R o ho) fun hR => he R hR o ho

/-- A fragment goes to the branches of run-time types of its condition, so it fits them. -/
theorem fits_matched {condition site : String} {e : Expanded}
    (he : ∀ R, condition ∈ s.near R → e.Fits s R) :
    ∀ R ∈ matchedTypes s condition site, ∀ o, s.find? R = some (.object o) → e.Fits s R := by
  intro R hR o ho
  refine he R (Schema.near_of_mem (mem_matchedTypes.1 hR).2 ?_)
  simp [Schema.possibleTypes_object ho]

/-- Splitting keeps selections fit: the common part for the type it is written in and for the
run-time types of the site, each branch for its run-time type. -/
theorem Splits.fits (hs : s.Implements) {site : String} {selections : List Expanded} {scope : String}
    {conditional : Bool} {branches branches' : Branches} {common : List Expanded}
    (h : Splits s site scope conditional selections branches common branches')
    (hcov : s.covers scope site = true) (hfit : ∀ e ∈ selections, e.Fits s scope) (hb : BranchesFit s branches) :
    (∀ e ∈ common, e.Fits s scope) ∧
      (∀ R ∈ s.possibleTypes site, ∀ o, s.find? R = some (.object o) → ∀ e ∈ common, e.Fits s R) ∧
      BranchesFit s branches' := by
  induction h with
  | nil => exact ⟨by simp, by simp, hb⟩
  | field _ ih =>
    obtain ⟨hhead, hrest⟩ := List.forall_mem_cons.1 hfit
    obtain ⟨hc, hR, hb'⟩ := ih hcov hrest hb
    refine ⟨List.forall_mem_cons.2 ⟨hhead, hc⟩, fun R hmem o ho => ?_, hb'⟩
    refine List.forall_mem_cons.2 ⟨?_, hR R hmem o ho⟩
    exact fits_field_object hs ho (Schema.mem_possibleTypes_of_covers hcov hmem) hhead
  | cyclic _ ih =>
    obtain ⟨-, hrest⟩ := List.forall_mem_cons.1 hfit
    refine ih hcov hrest (hb.foldl_add _ (fits_matched fun R hnear => ?_))
    rw [fits_fragment]
    exact ⟨hnear, by simp [Fits, Schema.mem_near]⟩
  | kept hcovers _ _ ihin ihrest =>
    obtain ⟨hhead, hrest⟩ := List.forall_mem_cons.1 hfit
    obtain ⟨hnear, hsub⟩ := fits_fragment.1 hhead
    obtain ⟨hi, -, hb₁⟩ := ihin hcovers hsub hb
    obtain ⟨hc, hR, hb'⟩ := ihrest hcov hrest hb₁
    refine ⟨List.forall_mem_cons.2 ⟨fits_fragment.2 ⟨hnear, hi⟩, hc⟩, fun R hmem o ho => ?_, hb'⟩
    refine List.forall_mem_cons.2 ⟨fits_fragment.2 ⟨?_, hi⟩, hR R hmem o ho⟩
    exact Schema.near_of_mem (Schema.mem_possibleTypes_of_covers hcovers hmem)
      (by simp [Schema.possibleTypes_object ho])
  | routed _ _ ih =>
    obtain ⟨hhead, hrest⟩ := List.forall_mem_cons.1 hfit
    obtain ⟨-, hsub⟩ := fits_fragment.1 hhead
    exact ih hcov hrest (hb.foldl_add _ (fits_matched fun R hnear => fits_fragment.2 ⟨hnear, hsub⟩))

/-- What is collected was declared on the type it was selected on, and its selections fit the type
that any type near that one declares for it. -/
theorem fits_of_collected {t : TypeDefinition} {selections : List Expanded} {collected : List CollectedField}
    (hfit : ∀ e ∈ selections, e.Fits s t.name) (hc : collect s t.name selections = .ok collected)
    {f : CollectedField} (hf : f ∈ collected) :
    (∃ g, s.selectable? f.scope f.name = some g) ∧
      ∀ other, s.covers other t.name = true → ∀ g, s.selectable? other f.name = some g →
        ∀ e ∈ f.selections, e.Fits s g.type.baseName := by
  have hmerged := merged_of_collect hc
  have hscope : ∀ o ∈ fieldsIn (s.covers · t.name) t.name false selections, s.covers o.scope t.name = true :=
    fun o ho => scope_of_mem_fieldsIn (by exact s.covers_refl t.name) ho
  constructor
  · obtain ⟨o, ho, -, hname, ho'⟩ := hmerged.first hf
    obtain ⟨c, hfits⟩ := fits_of_mem_fieldsIn hfit ho
    rw [← hname, ← ho']
    exact (fits_field.1 hfits).1
  · intro other hother g hg
    refine (hmerged.forall_selections_iff (fun _ => fits_marked _) hf).2 fun o ho hkey => ?_
    obtain ⟨c, hfits⟩ := fits_of_mem_fieldsIn hfit ho
    rw [← hmerged.name_eq hf ho hkey] at hg
    exact (fits_field.1 hfits).2 other (Schema.near_of_covers hother (hscope o ho)) g hg

end Expanded

namespace Schema

variable {s : Schema}

/-- The declaration behind a collected field is the one of the type itself or of the type on which
it was first selected. -/
theorem selectable?_of_declaration? {t : TypeDefinition} (ht : s.find? t.name = some t) {f : CollectedField}
    {g : FieldDefinition} (h : s.declaration? t.fields f = some g) :
    ∃ other, (other = t.name ∨ other = f.scope) ∧ s.selectable? other f.name = some g := by
  unfold declaration? at h
  unfold selectable?
  split at h
  next hname => exact ⟨t.name, .inl rfl, by rw [if_pos hname, h]⟩
  next hname =>
    simp only [if_neg hname]
    rw [List.find?_append, Option.or_eq_some_iff] at h
    rcases h with h | ⟨-, h⟩
    · exact ⟨t.name, .inl rfl, by rw [fieldsOf_eq ht, h]⟩
    · exact ⟨f.scope, .inr rfl, h⟩

theorem declaration?_isSome {fields : List FieldDefinition} {f : CollectedField} {g : FieldDefinition}
    (h : s.selectable? f.scope f.name = some g) : s.declaration? fields f ≠ none := by
  unfold selectable? at h
  unfold declaration?
  split
  next => simp
  next hname =>
    rw [if_neg hname] at h
    rw [List.find?_append, h]
    cases fields.find? (·.name = f.name) <;> simp

/-- Selections that fit never misfit, whatever is made of them. -/
theorem judges_fits (hs : s.Implements) : s.Judges (·.isMisfit = false) (fun e type => e.Fits s type) where
  ordinary := by
    intro e he
    cases e <;> first | rfl | cases he
  fragment := by
    intro label condition? c sub type h
    obtain ⟨hnear, hsub⟩ := Expanded.fits_fragment.1 h
    exact ⟨fun e => isMisfit_of_checkCompatible hnear, hsub⟩
  cyclic := by
    intro name condition type h e
    exact isMisfit_of_checkCompatible (by simpa only [Expanded.Fits] using h)
  declared := by
    intro t selections collected f ht hfit hc hf hnone
    obtain ⟨⟨g, hg⟩, -⟩ := Expanded.fits_of_collected hfit hc hf
    exact absurd hnone (declaration?_isSome hg)
  below := by
    intro t selections collected f g ht hfit hc hf hg
    obtain ⟨other, hother, hg⟩ := selectable?_of_declaration? ht hg
    refine (Expanded.fits_of_collected hfit hc hf).2 other ?_ g hg
    rcases hother with rfl | rfl
    · exact s.covers_refl t.name
    · obtain ⟨o, ho, -, -, hscope⟩ := (Expanded.merged_of_collect hc).first hf
      exact hscope ▸ Expanded.scope_of_mem_fieldsIn (by exact s.covers_refl t.name) ho
  split := by
    intro site selections common branches hfit hsplit
    obtain ⟨hc, hR, hb⟩ := (Expanded.splits_of_split hsplit).fits hs (s.covers_refl site) hfit
      fun _ _ _ => by simp [Branches.get]
    exact ⟨hc, fun R hmem o ho => List.forall_mem_append.2 ⟨hR R hmem o ho, hb R o ho⟩⟩

end Schema

/-! ## Where nothing is narrower -/

/-- Types near each other declare a field with the same base. -/
def Schema.Steady (s : Schema) : Prop :=
  ∀ ⦃type name f⦄, s.selectable? type name = some f → ∀ other ∈ s.near type, ∀ ⦃g⦄,
    s.selectable? other name = some g → g.type.baseName = f.type.baseName

section Steady

variable {s : Schema} {d : Document}

mutual

theorem Selection.valid_near (hs : s.Steady) : ∀ {selection : Selection} {type : String},
    selection.valid s d (fun type => [type]) type = true → selection.valid s d s.near type = true
  | .field alias? name c sub, type, h => by
    simp only [Selection.valid, Bool.and_eq_true, Option.isSome_iff_exists, List.all_eq_true] at h ⊢
    obtain ⟨⟨f, hf⟩, hsub⟩ := h
    have hbelow := hsub type List.mem_cons_self
    rw [hf] at hbelow
    refine ⟨⟨f, hf⟩, fun other hother => ?_⟩
    cases hg : s.selectable? other name with
    | none => rfl
    | some g =>
      rw [Option.all_some, hs hf other hother hg]
      exact Selection.validAll_near hs hbelow
  | .inline condition? c sub, type, h => by
    simp only [Selection.valid, Bool.and_eq_true] at h ⊢
    exact ⟨h.1, Selection.validAll_near hs h.2⟩
  | .spread name c, type, h => h

theorem Selection.validAll_near (hs : s.Steady) : ∀ {selections : List Selection} {type : String},
    Selection.validAll s d (fun type => [type]) selections type = true →
    Selection.validAll s d s.near selections type = true
  | [], _, _ => rfl
  | selection :: rest, type, h => by
    simp only [Selection.validAll, Bool.and_eq_true] at h ⊢
    exact ⟨Selection.valid_near hs h.1, Selection.validAll_near hs h.2⟩

end

/-- **Where no type narrows a field, validity in the types as written is validity in all types near
them.** -/
theorem Document.valid_near (hs : s.Steady) (h : d.valid s (fun type => [type]) = true) :
    d.valid s s.near = true := by
  simp only [Document.valid, Bool.and_eq_true, List.all_eq_true] at h ⊢
  exact ⟨fun op hop => Selection.validAll_near hs (h.1 op hop),
    fun f hf => Selection.validAll_near hs (h.2 f hf)⟩

end Steady

/-! ## Documents that are valid -/

namespace Document

variable {d : Document} {s : Schema}

/-- What is valid for all types near the one it is written in fits when its spreads are opened. -/
theorem fits_expandWith (hd : d.valid s s.near = true) {unopened : List Fragment} {selections : List Selection}
    {opened : List String} (hun : unopened = d.fragmentsOutside opened) {type : String}
    (h : Selection.validAll s d s.near selections type = true) :
    ∀ e ∈ d.expandWith unopened selections, e.Fits s type := by
  induction unopened, selections using Document.expandWith.induct generalizing opened type with
  | case1 unopened => simp [expandWith]
  | case2 unopened alias? name c sub rest ih ihr =>
    rw [expandWith]
    simp only [Selection.validAll, Selection.valid, Bool.and_eq_true, List.all_eq_true,
      Option.isSome_iff_exists] at h
    refine List.forall_mem_cons.2 ⟨Expanded.fits_field.2 ⟨h.1.1, fun other hother f hf => ?_⟩, ihr hun h.2⟩
    have hsub := h.1.2 other hother
    rw [hf] at hsub
    exact ih hun hsub
  | case3 unopened condition? c sub rest ih ihr =>
    rw [expandWith]
    simp only [Selection.validAll, Selection.valid, Bool.and_eq_true] at h
    refine List.forall_mem_cons.2 ⟨Expanded.fits_fragment.2 ⟨?_, ih hun h.1.2⟩, ihr hun h.2⟩
    cases condition? with
    | none => exact Schema.mem_near.2 (.inl rfl)
    | some condition => exact Schema.mem_near.2 (.inr (by simpa using h.1.1))
  | case4 unopened name c rest ih ihr =>
    rw [expandWith]
    simp only [Selection.validAll, Selection.valid, Bool.and_eq_true] at h
    refine List.forall_mem_cons.2 ⟨?_, ihr hun h.2⟩
    have hnear : ∀ f, d.fragment? name = some f → f.condition ∈ s.near type := by
      intro f hf
      have hover := h.1
      rw [hf] at hover
      exact Schema.mem_near.2 (.inr hover)
    split
    next f hf =>
      have hmem : f ∈ d.fragmentsOutside opened := hun ▸ List.mem_of_find?_eq_some hf
      have hname : f.name = name := by simpa using List.find?_some hf
      simp only [fragmentsOutside, List.mem_filter, decide_eq_true_eq] at hmem
      have hdef : d.fragment? name = some f := by
        rw [← find?_fragmentsOutside (hname ▸ hmem.2), ← hun]
        exact hf
      simp only [valid, Bool.and_eq_true, List.all_eq_true] at hd
      have hothers : Fragment.others name unopened = d.fragmentsOutside (name :: opened) := by
        rw [hun, others_fragmentsOutside]
      exact Expanded.fits_fragment.2 ⟨hnear f hdef, ih f hf hothers (hd.2 f hmem.1)⟩
    next hf =>
      split
      next f hdef => simpa only [Expanded.Fits] using hnear f hdef
      next => simp only [Expanded.Fits]

theorem fits_expand (hd : d.valid s s.near = true) {selections : List Selection} {type : String}
    (h : Selection.validAll s d s.near selections type = true) : ∀ e ∈ d.expand selections, e.Fits s type :=
  fits_expandWith hd (show d.fragments = d.fragmentsOutside [] by simp [fragmentsOutside]) h

/-- **Selections that are valid on all types near the one they are written in never misfit.** An
operation may fail, but neither because of a fragment that cannot be spread nor because of a field
that does not exist. -/
theorem valid_selections_fit (hs : s.Implements) (hd : d.valid s s.near = true) {op : Operation}
    (hop : op ∈ d.operations) {p p' : Progress} {e : GenerationError}
    (h : outcome (s.generateOperation d op) p = (.error e, p')) :
    (∀ label condition type, e ≠ .incompatibleFragment label condition type) ∧
      ∀ type field, e ≠ .unknownField type field := by
  have hvalid : Selection.validAll s d s.near op.selections (s.rootType op.kind) = true := by
    simp only [valid, Bool.and_eq_true, List.all_eq_true] at hd
    exact hd.1 op hop
  have hstrict : ∀ shape name, Leads (fun _ => True) (·.isMisfit = false) (register shape (some name)) fun _ => True :=
    fun _ _ _ _ => ends_register_some (fun _ _ _ => rfl) fun _ _ => trivial
  have hoperation : Leads (fun _ => True) (·.isMisfit = false) (s.operationShapes d op) fun _ => True :=
    Schema.operationShapes_leads (s.judges_fits hs)
      ⟨fun _ _ _ _ _ _ _ => ends_register_none fun _ _ _ => trivial, fun _ _ => hstrict _ _⟩
      ⟨(s.judges_fits hs).ordinary, fun _ _ => hstrict _ _, fun _ _ _ _ _ => trivial,
        fun _ _ _ _ _ _ _ _ => hstrict _ _ _ trivial⟩
      (fits_expand hd hvalid) (fun _ => hstrict _ _) fun _ _ => trivial
  have hfit := (Schema.generateOperation_leads hoperation p trivial).1 e p' h
  constructor
  · rintro _ _ _ rfl
    cases hfit
  · rintro _ _ rfl
    cases hfit

/-! Friends of a user are users, and those of a team are teams: `friend` is narrower on each of them
than on the interface. -/

def befriended : Schema where
  types := [
    .scalar ⟨"String", none⟩, .scalar ⟨"ID", none⟩,
    .interface ⟨"Node", none, [], [⟨"friend", .named "Node", none⟩]⟩,
    .object ⟨"User", none, ["Node"], [⟨"id", .named "ID", none⟩, ⟨"friend", .named "User", none⟩]⟩,
    .object ⟨"Team", none, ["Node"], [⟨"friend", .named "Team", none⟩]⟩,
    .object ⟨"Query", none, [], [⟨"team", .named "Team", none⟩, ⟨"node", .named "Node", none⟩]⟩]
  roots := {}
  scalars := .default

theorem befriended_valid : befriended.Valid where
  distinct := by
    unfold Schema.Distinct
    decide
  implements := by
    intro o ho i hi t ht f hf
    simp only [befriended, List.mem_cons, List.not_mem_nil, reduceCtorEq, TypeDefinition.object.injEq,
      false_or, or_false] at ho
    rcases ho with rfl | rfl | rfl
    · obtain rfl := List.mem_singleton.1 hi
      cases ht
      obtain rfl := List.mem_singleton.1 hf
      exact ⟨_, rfl, rfl, by decide, by decide⟩
    · obtain rfl := List.mem_singleton.1 hi
      cases ht
      obtain rfl := List.mem_singleton.1 hf
      exact ⟨_, rfl, rfl, by decide, by decide⟩
    · cases hi
  members := by
    intro u hu
    simp [befriended] at hu
  objects := by
    intro u hu
    simp [befriended] at hu
  builtin := by decide

theorem befriended_implements : befriended.Implements where
  distinct := befriended_valid.distinct
  declares := by
    intro o ho i hi t ht f hf
    obtain ⟨g, hg, -⟩ := befriended_valid.implements o ho i hi t ht f hf
    exact ⟨g, List.mem_of_find?_eq_some hg, by simpa using List.find?_some hg⟩

def nodeQuery : Operation :=
  ⟨none, .query, [], [.field none "node" false [.inline (some "User") false [.field none "id" false []]]],
    "\x7b node \x7b ... on User \x7b id \x7d \x7d \x7d"⟩

/-- The query fails, since it does not ask for the type of the node. -/
theorem nodeQuery_fits :
    (outcome (befriended.generateOperation ⟨[nodeQuery], []⟩ nodeQuery) .start).1 =
      .error (.missingTypename "Node") ∧
    (∀ label condition type, GenerationError.missingTypename "Node" ≠ .incompatibleFragment label condition type) ∧
      ∀ type field, GenerationError.missingTypename "Node" ≠ .unknownField type field := by
  have hfails : (outcome (befriended.generateOperation ⟨[nodeQuery], []⟩ nodeQuery) .start).1 =
      .error (.missingTypename "Node") := by cbv
  exact ⟨hfails, valid_selections_fit (d := ⟨[nodeQuery], []⟩) befriended_implements (by cbv) List.mem_cons_self
    (Prod.ext hfails rfl)⟩

def teamQuery : Operation :=
  ⟨none, .query, [],
    [.field none "team" false [.inline (some "Node") false [.field none "friend" false [
      .field none "__typename" false [], .inline (some "User") false [.field none "id" false []]]]]],
    "\x7b team \x7b ... on Node \x7b friend \x7b __typename ... on User \x7b id \x7d \x7d \x7d \x7d \x7d"⟩

/-- The friend of a node may be a user; but the fragment is judged against the friend of a team. -/
theorem befriended_misfit : befriended.Valid ∧ Acyclic ⟨[teamQuery], []⟩ ∧
    Document.valid ⟨[teamQuery], []⟩ befriended (fun type => [type]) = true ∧
    (outcome (befriended.generateOperation ⟨[teamQuery], []⟩ teamQuery) .start).1 =
      .error (.incompatibleFragment .inline "User" "Team") := by
  refine ⟨befriended_valid, fun n hn => ?_, by cbv, by cbv⟩
  obtain ⟨m, hm, -⟩ := Relation.TransGen.head'_iff.1 hn
  simp [Spreads, spreadsIn, fragment?] at hm

end Document

end TypedQuery
