/-
What is collected on a run-time type of an interface or a union. The fields
of its variant are those of GraphQL's own field collection for that type on
the selections as written (`Document.Collected`): the same response keys, the
same schema field under each, and the same flag.
-/
import Mathlib
import TypedQuery.Proofs.Opening
import TypedQuery.Proofs.ShapeRuns

namespace TypedQuery

open Generator

/-- Field collection on the document: `selections` return `key` from the schema field `name`, and
the server may leave it out if and only if every occurrence that applies is conditional. -/
def Document.Collected (d : Document) (applies : String → Prop) (selections : List Selection)
    (key name : String) (conditional : Bool) : Prop :=
  (∃ c below, d.Occurs applies selections key name c below) ∧
    (conditional = true ↔ ∀ n c below, d.Occurs applies selections key n c below → c = true)

namespace Expanded

/-! ## Collected fields and occurrences -/

section collect

variable {s : Schema} {site : String} {selections : List Expanded} {fields : List CollectedField}

theorem exists_collected_of_occurs (h : collect s site selections = .ok fields) {key name : String} {c : Bool}
    {sub : List Expanded} (ho : Occurs (s.covers · site = true) selections key name c sub) :
    ∃ f ∈ fields, f.key = key ∧ f.name = name := by
  obtain ⟨scope, hmem⟩ := mem_fieldsIn_of_occurs ho site false
  exact (merged_of_collect h).collected _ hmem

theorem occurs_of_collected (h : collect s site selections = .ok fields) {f : CollectedField}
    (hf : f ∈ fields) : ∃ c sub, Occurs (s.covers · site = true) selections f.key f.name c sub := by
  obtain ⟨o, ho, hk, hn, -⟩ := (merged_of_collect h).first hf
  obtain ⟨c, hocc, -⟩ := occurs_of_mem_fieldsIn ho
  exact ⟨c, o.selections, hk ▸ hn ▸ hocc⟩

/-- A collected field is conditional if and only if each occurrence of its key is. -/
theorem conditional_iff_of_collected (h : collect s site selections = .ok fields) {f : CollectedField}
    (hf : f ∈ fields) : f.conditional = true ↔
      ∀ n c sub, Occurs (s.covers · site = true) selections f.key n c sub → c = true := by
  rw [(merged_of_collect h).conditional_iff hf]
  constructor
  · intro hall n c sub ho
    obtain ⟨scope, hmem⟩ := mem_fieldsIn_of_occurs ho site false
    simpa using hall _ hmem rfl
  · intro hall o hmem hk
    obtain ⟨c, ho, hc⟩ := occurs_of_mem_fieldsIn hmem
    rw [hc, hall o.name c o.selections (hk ▸ ho)]
    rfl

/-- A collected field that is not conditional has an occurrence that is not. -/
theorem occurs_of_unconditional (h : collect s site selections = .ok fields) {f : CollectedField}
    (hf : f ∈ fields) (hcond : f.conditional = false) :
    ∃ sub, Occurs (s.covers · site = true) selections f.key f.name false sub := by
  have hnot : ¬ ∀ n c sub, Occurs (s.covers · site = true) selections f.key n c sub → c = true := by
    intro hall
    rw [(conditional_iff_of_collected h hf).2 hall] at hcond
    cases hcond
  push Not at hnot
  obtain ⟨n, c, sub, ho, hne⟩ := hnot
  rw [eq_false_of_ne_true hne] at ho
  obtain ⟨scope, hmem⟩ := mem_fieldsIn_of_occurs ho site false
  obtain rfl : n = f.name := (merged_of_collect h).name_eq hf hmem rfl
  exact ⟨sub, ho⟩

end collect

/-- On an object, the expansion of selections collects what the document's own field collection
finds in them for that object. -/
theorem collected_iff {s : Schema} {d : Document} {R : String} {o : ObjectDefinition}
    (ho : s.find? R = some (.object o)) {selections : List Selection} {expanded : List Expanded}
    {fields : List CollectedField} (hopens : d.Opens selections expanded) {sels : List Expanded}
    (hsame : SameFor s R sels expanded)
    (h : collect s R sels = .ok fields) (key name : String) (conditional : Bool) :
    (∃ f ∈ fields, f.key = key ∧ f.name = name ∧ f.conditional = conditional) ↔
      d.Collected (R ∈ s.possibleTypes ·) selections key name conditional := by
  have hcov : ∀ key name c sub, Occurs (s.covers · R = true) sels key name c sub ↔
      Occurs (R ∈ s.possibleTypes ·) expanded key name c sub :=
    fun key name c sub => (uniform_object ho sels key name c sub).trans (hsame key name c sub)
  have hkey : ∀ f ∈ fields, (f.conditional = true ↔
      ∀ n c below, d.Occurs (R ∈ s.possibleTypes ·) selections f.key n c below → c = true) := by
    intro f hf
    rw [conditional_iff_of_collected h hf]
    constructor
    · intro hall n c below hocc
      obtain ⟨sub, hocc, -⟩ := hopens.occurs_of hocc
      exact hall n c sub ((hcov _ _ _ _).2 hocc)
    · intro hall n c sub hocc
      obtain ⟨below, hocc, -⟩ := hopens.occurs ((hcov _ _ _ _).1 hocc)
      exact hall n c below hocc
  constructor
  · rintro ⟨f, hf, rfl, rfl, rfl⟩
    obtain ⟨c, sub, hocc⟩ := occurs_of_collected h hf
    obtain ⟨below, hocc, -⟩ := hopens.occurs ((hcov _ _ _ _).1 hocc)
    exact ⟨⟨c, below, hocc⟩, hkey f hf⟩
  · rintro ⟨⟨c, below, hocc⟩, hcond⟩
    obtain ⟨sub, hocc, -⟩ := hopens.occurs_of hocc
    obtain ⟨f, hf, rfl, rfl⟩ := exists_collected_of_occurs h ((hcov _ _ _ _).2 hocc)
    exact ⟨f, hf, rfl, rfl, Bool.eq_iff_iff.2 ((hkey f hf).trans hcond.symm)⟩

end Expanded

namespace Schema

theorem occurs_of_returnsTypename {s : Schema} {site : String} {selections : List Expanded}
    {fields : List CollectedField} (h : Expanded.collect s site selections = .ok fields)
    (ht : returnsTypename fields = true) :
    ∃ sub, Expanded.Occurs (s.covers · site = true) selections typenameField.name typenameField.name
      false sub := by
  simp only [returnsTypename, List.any_eq_true, Bool.and_eq_true, decide_eq_true_eq,
    Bool.not_eq_eq_eq_not, Bool.not_true] at ht
  obtain ⟨f, hf, ⟨hkey, hname⟩, hcond⟩ := ht
  obtain ⟨sub, ho⟩ := Expanded.occurs_of_unconditional h hf hcond
  rw [hkey, hname] at ho
  exact ⟨sub, ho⟩

/-- The selections that return `__typename` are not empty. -/
theorem ne_nil_of_returnsTypename {s : Schema} {site : String} {selections : List Expanded}
    {fields : List CollectedField} (h : Expanded.collect s site selections = .ok fields)
    (ht : returnsTypename fields = true) : selections ≠ [] := by
  obtain ⟨sub, ho⟩ := occurs_of_returnsTypename h ht
  rintro rfl
  exact Expanded.not_occurs_nil ho

/-- The keys and schema fields of the properties are those collected. -/
theorem properties_eq_collected {s : Schema} {fields : List FieldDefinition}
    {F : FieldDefinition → List Expanded → PropertyType → Prop} {collected : List CollectedField}
    {qs : List Property} (h : List.Forall₂ (s.IsProperty fields F) collected qs) :
    qs.map (fun q => (q.name, q.fieldName)) = collected.map fun f => (f.key, f.name) := by
  induction h with
  | nil => rfl
  | cons hq _ ih =>
    obtain ⟨declaration, t, -, -, rfl⟩ := hq
    rw [List.map_cons, List.map_cons, ih]

theorem establishes_of_grows {resolve : FieldResolver} (hres : ∀ f sels, Grows (resolve f sels)) :
    Establishes (fun _ => True) (fun _ _ _ _ => True) resolve :=
  fun _ _ _ _ _ _ h => ⟨trivial, (hres _ _).runs h, trivial⟩

theorem fieldType_eq_over (s : Schema) (levels : Nat) :
    ∃ resolve, s.fieldType levels = s.fieldTypeOver resolve ∧ ∀ f sels, Grows (resolve f sels) := by
  cases levels with
  | zero => exact ⟨_, rfl, fun _ _ => grows_throw⟩
  | succ levels => exact ⟨_, rfl, fieldType_grows levels⟩

/-- What collection on the object `o` gives, and the properties of the shape kept for it. -/
def ObjectCollects (s : Schema) (r : Registry) (o : ObjectDefinition) (selections : List Expanded)
    (n : String) : Prop :=
  ∃ fields shape, Expanded.collect s o.name selections = .ok fields ∧ r.lookup? n = some shape ∧
    shape.properties.map (fun q => (q.name, q.fieldName)) = fields.map fun f => (f.key, f.name)

theorem objectShape_collects {s : Schema} {resolve : FieldResolver} (hres : ∀ f sels, Grows (resolve f sels))
    {o : ObjectDefinition} {selections : List Expanded} {name? : Option String} {n : String} {p p' : Progress}
    (h : Runs (s.objectShape resolve o selections name?) p n p') :
    p.Grows p' ∧ s.ObjectCollects p'.registry o selections n := by
  obtain ⟨-, collected, qs, p₁, hc, -, -, hall, hreg⟩ :=
    objectShape_runs (fun _ _ _ _ _ _ => id) (establishes_of_grows hres) trivial h
  exact ⟨(objectShape_closed closed_grows hres _ _ _).runs h, collected, _, hc, (register_runs hreg).1.held,
    properties_eq_collected hall⟩

theorem objectCollects_mono {s : Schema} ⦃r r' : Registry⦄ ⦃o : ObjectDefinition⦄ ⦃selections : List Expanded⦄
    ⦃n : String⦄ (hext : r'.Extends r) (h : s.ObjectCollects r o selections n) :
    s.ObjectCollects r' o selections n := by
  obtain ⟨fields, shape, hc, hl, hp⟩ := h
  exact ⟨fields, shape, hc, hext.lookup? hl, hp⟩

/-- The run-time type `R` of `site` is served as the document has it: what is collected on `R` from
the common part of the selections and the branch of `R` is what the document's field collection
finds for `R` in the selections as written, and `R` has a variant, whose shape holds just that. -/
def VariantCollects (s : Schema) (d : Document) (site : String) (selections : List Selection) (r : Registry)
    (shape : Shape) (R : String) : Prop :=
  ∃ common branches fields, Expanded.split s site (d.expand selections) = .ok (common, branches) ∧
    Expanded.collect s R (common ++ branches.get R) = .ok fields ∧ (fields.map (·.key)).Nodup ∧
    (∀ key name conditional, (∃ f ∈ fields, f.key = key ∧ f.name = name ∧ f.conditional = conditional) ↔
      d.Collected (R ∈ s.possibleTypes ·) selections key name conditional) ∧
    (∃ v ∈ shape.variants, v.typename = R) ∧
    ∀ v ∈ shape.variants, v.typename = R → ∃ shape', r.lookup? v.shapeName = some shape' ∧
      shape'.properties.map (fun q => (q.name, q.fieldName)) = fields.map fun f => (f.key, f.name)

/-- **Splitting an abstract selection loses and invents nothing.** A field of an interface or a
union type, whose shape has variants, serves each object among the site's run-time types as the
document has it. -/
theorem variant_fields_eq_collected {s : Schema} (hs : s.Distinct) (hu : s.DistinctMembers) {d : Document}
    (hd : d.Acyclic) {field : FieldDefinition} {site : TypeDefinition}
    (hsite : s.find? field.type.baseName = some site) (hkind : site.kind = .interface ∨ site.kind = .union)
    {selections : List Selection} {levels : Nat} {p p' : Progress} {t : PropertyType}
    (h : Runs (s.fieldType levels field (d.expand selections)) p t p') :
    ∃ n shape, t.base = .generated n ∧ p'.registry.lookup? n = some shape ∧
      (shape.variants ≠ [] → ∀ R ∈ s.possibleTypes site.name, ∀ o, s.find? R = some (.object o) →
        s.VariantCollects d site.name selections p'.registry shape R) := by
  obtain ⟨resolve, hover, hres⟩ := s.fieldType_eq_over levels
  rw [hover] at h
  obtain ⟨base, hbase, rfl⟩ := fieldTypeOver_runs h
  cases hbase with
  | scalar h' | enumeration h' | object h' =>
    obtain rfl := Option.some.inj (hsite.symm.trans h')
    simp [TypeDefinition.kind] at hkind
  | @abstract site' n _ h' hk hr =>
    obtain rfl : site = site' := Option.some.inj (hsite.symm.trans h')
    obtain ⟨-, common, branches, collected, qs, vs, p₁, hsplit, hc, -, -, -, hvs, hreg⟩ :=
      abstractShape_runs (Q := s.ObjectCollects) (fun _ _ _ _ _ _ => id) objectCollects_mono
        (establishes_of_grows hres) (fun _ _ _ _ _ _ _ hr => ⟨trivial, objectShape_collects hres hr⟩) trivial hr
    have hkeeps := (register_runs hreg).1
    refine ⟨n, _, base_ofTypeRef _ _, hkeeps.held, ?_⟩
    unfold VariantCollects
    rw [variants_of_abstractKind site.kind vs rfl]
    intro hne R hR o ho
    rcases hvs with ⟨-, rfl⟩ | ⟨htypename, hvs⟩
    · exact absurd rfl hne
    have hoR : o.name = R := find?_name ho
    have hcommon := ne_nil_of_returnsTypename hc htypename
    obtain ⟨v, hv, hvR⟩ := hvs.every R hR o ho (by simp [hcommon])
    have hmade : ∀ v ∈ vs, v.typename = R →
        s.ObjectCollects p'.registry o (common ++ branches.get R) v.shapeName := by
      rintro v hv rfl
      obtain ⟨-, o', branch, ho', hbranch, hcollects⟩ := hvs.made v hv
      obtain rfl : o = o' := by simpa using ho.symm.trans ho'
      rw [hbranch (possibleTypes_nodup hs hu site.name)] at hcollects
      exact objectCollects_mono hkeeps.extends hcollects
    obtain ⟨fields, -, hcollect, -, -⟩ := hmade v hv hvR
    rw [hoR] at hcollect
    refine ⟨common, branches, fields, hsplit, hcollect, (Expanded.merged_of_collect hcollect).distinct, ?_,
      ⟨v, hv, hvR⟩, ?_⟩
    · exact Expanded.collected_iff ho (Document.expand_opens (hd.from selections))
        (Expanded.split_sameFor hR hsplit) hcollect
    · intro v hv hvR
      obtain ⟨fields', shape', hcollect', hl, hp⟩ := hmade v hv hvR
      rw [hoR, hcollect, Except.ok.injEq] at hcollect'
      exact ⟨shape', hl, hcollect' ▸ hp⟩

/-! A union of two objects that share an interface, selected from through the interface. -/

def pets : Schema where
  types := [
    .scalar ⟨"String", none⟩,
    .interface ⟨"Named", none, [], [⟨"name", .named "String", none⟩]⟩,
    .object ⟨"Dog", none, ["Named"], [⟨"name", .named "String", none⟩, ⟨"bark", .named "String", none⟩]⟩,
    .object ⟨"Cat", none, ["Named"], [⟨"name", .named "String", none⟩]⟩,
    .union ⟨"Pet", none, ["Dog", "Cat"]⟩]
  roots := {}
  scalars := .default

def petField : FieldDefinition := ⟨"pet", .named "Pet", none⟩

def barks : Document :=
  ⟨[], [⟨"Barks", "Dog", [.field none "bark" false []], "fragment Barks on Dog \x7b bark \x7d"⟩]⟩

/-- A skipped name and the fragment on dogs, included on a condition, within the interface. -/
def petSelections : List Selection :=
  [.field none "__typename" false [],
   .inline (some "Named") false [.field none "name" true [], .spread "Barks" true]]

theorem pets_distinct : pets.Distinct := by
  unfold Distinct
  decide

theorem pets_distinctMembers : pets.DistinctMembers := by
  intro u hu
  simp only [pets, List.mem_cons, List.not_mem_nil, reduceCtorEq, TypeDefinition.union.injEq, false_or,
    or_false] at hu
  subst hu
  decide

theorem barks_acyclic : barks.Acyclic := by
  intro n h
  obtain ⟨m, hm, -⟩ := Relation.TransGen.head'_iff.1 h
  unfold Document.Spreads Document.spreadsIn at hm
  split at hm
  next f hf =>
    obtain rfl : f = _ := List.mem_singleton.1 (List.mem_of_find?_eq_some hf)
    simp [Selection.spreadsOf, Selection.spreads] at hm
  next => simp at hm

theorem pet_fields_eq_collected :
    ∃ t p', Runs (pets.fieldType 1 petField (barks.expand petSelections)) .start t p' ∧
      ∃ shape, p'.registry.lookup? "Pet" = some shape ∧ pets.VariantCollects barks "Pet" petSelections p'.registry shape "Dog" := by
  have hrun : Runs (pets.fieldType 1 petField (barks.expand petSelections)) .start
      (.named (.generated "Pet") true) _ := runs_of_outcome (by cbv)
  have hsite : pets.find? petField.type.baseName = some (.union ⟨"Pet", none, ["Dog", "Cat"]⟩) := rfl
  obtain ⟨n, shape, hn, hl, hall⟩ :=
    variant_fields_eq_collected pets_distinct pets_distinctMembers barks_acyclic hsite (.inr rfl) hrun
  cases hn
  have hne : shape.variants ≠ [] := by
    have hvariants : ((outcome (pets.fieldType 1 petField (barks.expand petSelections))
      .start).2.registry.lookup? "Pet").map (·.variants) = some [⟨"Dog", "Dog"⟩, ⟨"Cat", "Cat"⟩] := by cbv
    rw [hl] at hvariants
    simp only [Option.map_some, Option.some.injEq] at hvariants
    simp [hvariants]
  exact ⟨_, _, hrun, shape, hl, hall hne "Dog" (by decide) _ rfl⟩

end Schema

end TypedQuery
