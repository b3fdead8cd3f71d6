/-
Shape soundness: every response that execution can return for an operation
conforms to the shape generated for its data (`response_conforms`).

The induction is over the levels of the resolver. What it carries for a field
(`FieldSound`) is about all selections that feed the expanded ones, so that it
applies to merged selections as well, and about all types that may stand for
the declared one, so that it applies to what an object declares for a field of
its interface.
-/
import TypedQuery.Proofs.Conformance
import TypedQuery.Proofs.Merging

namespace TypedQuery

open Generator

namespace Document

variable {d : Document} {s : Schema}

/-- Responses to a field of the declared type, or of one that may stand for it, conform to `t`. -/
def FieldSound (d : Document) (s : Schema) (r : Registry) (f : FieldDefinition) (expanded : List Expanded)
    (t : PropertyType) : Prop :=
  (∃ definition, s.find? f.type.baseName = some definition) ∧
    ∀ r', r'.Extends r → ∀ a selections v, s.Covariant a f.type → d.Feeds s a.baseName selections expanded →
      d.Answers s a selections v → Conforms r' t v

theorem fieldSound_mono ⦃r r' : Registry⦄ ⦃f : FieldDefinition⦄ ⦃expanded : List Expanded⦄ ⦃t : PropertyType⦄
    (hext : r'.Extends r) (h : d.FieldSound s r f expanded t) : d.FieldSound s r' f expanded t :=
  ⟨h.1, fun r₂ h₂ => h.2 r₂ (h₂.trans hext)⟩

/-- The fields of a response are those of the properties. -/
structure FieldsConform (r : Registry) (qs : List Property) (fields : List (String × Response)) : Prop where
  keys : ∀ f ∈ fields, f.1 ∈ qs.map (·.name)
  values : ∀ q ∈ qs, ∀ f ∈ fields, f.1 = q.name → Conforms r q.type f.2
  missing : ∀ q ∈ qs, q.name ∉ fields.map (·.1) → q.type.isNullable = true

theorem FieldsConform.shape {r : Registry} {shape : Shape} {fields : List (String × Response)}
    (h : FieldsConform r shape.properties fields) (hk : shape.kind.isOutput = true) (hv : shape.variants = []) :
    ShapeConforms r shape (.object fields) := .properties hk hv h.keys h.values h.missing

/-- `__typename` is a string, whatever is selected below it. -/
theorem FieldSound.typename {r r' : Registry} {expanded : List Expanded} {t : PropertyType} (hs : s.Valid)
    (h : d.FieldSound s r typenameField expanded t) (hext : r'.Extends r) (R : String) :
    Conforms r' t (.leaf "String" R) := by
  obtain ⟨⟨definition, hdef⟩, h⟩ := h
  have hkind := hs.builtin ("String", "String") (by decide) definition hdef
  cases definition with
  | scalar sd =>
    refine h r' hext typenameField.type [] _ (.refl s _) ?_ (.nonNull (by simp) (.scalar hdef))
    have hnone : ∀ R, R ∉ s.possibleTypes typenameField.type.baseName := by
      intro R hR
      cases (Schema.isLeaf_of_scalar hdef).symm.trans (Schema.isLeaf_of_mem_possibleTypes hR)
    exact ⟨fun R hR => absurd hR (hnone R), fun R hR => absurd hR (hnone R)⟩
  | enumeration | object | interface | union | input => cases hkind

section Collected

variable {site R : String} {expanded : List Expanded} {collected : List CollectedField} {qs : List Property}
  {r r' : Registry} {kept : List KeptField} {fields : List (String × Response)}
  (hs : s.Valid) (hd : d.Complete s) (hc : Expanded.collect s site expanded = .ok collected)
  (hu : Expanded.Uniform s site R expanded)
  (hserves : d.Serves s R kept expanded)

include hc hu hserves in
/-- A field that a run has kept is collected. -/
theorem exists_collected_of_kept {k : KeptField} (hk : k ∈ kept) :
    ∃ g ∈ collected, g.key = k.key ∧ g.name = k.name := by
  obtain ⟨c, sub, ho, -⟩ := hserves.found k hk
  exact Expanded.exists_collected_of_occurs hc ((hu _ _ _ _).2 ho)

include hc hu hserves in
/-- The key of a field that is not conditional is kept by every run. -/
theorem exists_kept_of_collected {g : CollectedField} (hg : g ∈ collected) (hcond : g.conditional = false) :
    ∃ k ∈ kept, k.key = g.key ∧ k.name = g.name := by
  obtain ⟨sub, ho⟩ := Expanded.occurs_of_unconditional hc hg hcond
  obtain ⟨k, hk, hkey, hname, -⟩ := hserves.keeps _ _ _ ((hu _ _ _ _).1 ho)
  exact ⟨k, hk, hkey, hname⟩

include hs hc in
/-- `R` declares a collected field, with a type that may stand for that of the property. -/
theorem declared_of_collected (hR : R ∈ s.possibleTypes site) {g : CollectedField} (hg : g ∈ collected)
    (hname : g.name ≠ typenameField.name) {f : FieldDefinition}
    (hf : s.declaration? (s.fieldsOf site) g = some f) :
    ∃ f', s.fieldOn? R g.name = some f' ∧ s.Covariant f'.type f.type := by
  rw [Schema.fieldOn?, if_neg hname]
  rw [Schema.declaration?, if_neg hname, List.find?_append, Option.or_eq_some_iff] at hf
  rcases hf with hf | ⟨-, hf⟩
  · exact hs.declares hR hf
  · obtain ⟨o, ho, -, -, hscope⟩ := (Expanded.merged_of_collect hc).first hg
    have hcover : s.covers g.scope site = true :=
      hscope ▸ Expanded.scope_of_mem_fieldsIn (by exact s.covers_refl site) ho
    exact hs.declares (Schema.mem_possibleTypes_of_covers hcover hR) hf

include hc hu hserves in
/-- The field that a run has kept first under a collected key is the collected one. -/
theorem first_kept_of_collected {g : CollectedField} (hg : g ∈ collected) (hkey : g.key ∈ kept.map (·.key)) :
    ∃ k ∈ kept, kept.find? (·.key = g.key) = some k ∧ k.key = g.key ∧ k.name = g.name := by
  obtain ⟨k, hfirst⟩ : ∃ k, kept.find? (·.key = g.key) = some k := by
    rw [← Option.isSome_iff_exists, List.find?_isSome]
    obtain ⟨k, hk, hkk⟩ := List.mem_map.1 hkey
    exact ⟨k, hk, by simpa using hkk⟩
  have hk : k ∈ kept := List.mem_of_find?_eq_some hfirst
  have hkk : k.key = g.key := by simpa using List.find?_some hfirst
  obtain ⟨g', hg', hgk, hgn⟩ := exists_collected_of_kept hc hu hserves hk
  obtain rfl := List.inj_on_of_nodup_map (Expanded.merged_of_collect hc).distinct hg' hg (hgk.trans hkk)
  exact ⟨k, hk, hfirst, hkk, hgn.symm⟩

include hs hd hc hu hserves in
/-- What `R` answers under a collected key conforms to the type of the field. -/
theorem value_conforms (hR : R ∈ s.possibleTypes site) {g : CollectedField} (hg : g ∈ collected)
    {f : FieldDefinition} (hf : s.declaration? (s.fieldsOf site) g = some f) {t : PropertyType}
    (hsound : d.FieldSound s r f g.selections t) (hcomplete : d.CompleteOn s R expanded)
    (ha : d.ObjectAnswers s R kept fields) (hext : r'.Extends r) {v : Response} (hv : (g.key, v) ∈ fields) :
    Conforms r' t v := by
  have hkey : g.key ∈ kept.map (·.key) := (ha.keys g.key).1 (List.mem_map_of_mem (f := (·.1)) hv)
  obtain ⟨k, hk, hfirst, hkk, hkn⟩ := first_kept_of_collected hc hu hserves hg hkey
  by_cases htn : g.name = typenameField.name
  · rw [Schema.declaration?, if_pos htn] at hf
    cases hf
    have hanswer : v = .leaf "String" R := ha.typename _ hv k hfirst (hkn.trans htn)
    rw [hanswer]
    exact hsound.typename hs hext R
  · obtain ⟨f', hf', hcovariant⟩ := declared_of_collected hs hc hR hg htn hf
    have hfeeds := feeds_of_collected hc hu hg hd hserves hcomplete ⟨k, hk, hkk⟩ hf'
    have hanswer := ha.values _ hv k hfirst f' (hkn ▸ hf')
    exact hsound.2 r' hext _ _ _ hcovariant hfeeds hanswer

include hs hd hc hu hserves in
/-- An answer of `R` has the fields that its selections collect. -/
theorem fields_conform (hR : R ∈ s.possibleTypes site)
    (hall : List.Forall₂ (s.IsProperty (s.fieldsOf site) (d.FieldSound s r)) collected qs)
    (hcomplete : d.CompleteOn s R expanded) (ha : d.ObjectAnswers s R kept fields) (hext : r'.Extends r) :
    FieldsConform r' qs fields := by
  constructor
  · intro f hf
    obtain ⟨k, hk, hkey⟩ := List.mem_map.1 ((ha.keys f.1).1 (List.mem_map_of_mem hf))
    obtain ⟨g, hg, hgk, -⟩ := exists_collected_of_kept hc hu hserves hk
    obtain ⟨q, hq, _, _, -, -, rfl⟩ := exists_of_forall₂_left hall hg
    exact List.mem_map.2 ⟨_, hq, hgk.trans hkey⟩
  · rintro q hq ⟨key, v⟩ hf hname
    obtain ⟨g, hg, declaration, t, hdecl, hsound, rfl⟩ := exists_of_forall₂_right hall hq
    cases hname
    have h : Conforms r' t v := value_conforms hs hd hc hu hserves hR hg hdecl hsound hcomplete ha hext hf
    dsimp only
    split
    · exact h.intoNullable
    · exact h
  · intro q hq hmissing
    obtain ⟨g, hg, declaration, t, -, -, rfl⟩ := exists_of_forall₂_right hall hq
    dsimp only
    cases hcond : g.conditional with
    | true => exact isNullable_intoNullable t
    | false =>
      obtain ⟨k, hk, hkey, -⟩ := exists_kept_of_collected hc hu hserves hg hcond
      exact absurd ((ha.keys _).2 (List.mem_map.2 ⟨k, hk, hkey⟩)) hmissing

include hc hu hserves in
/-- A `__typename` that is not conditional is answered with the run-time type. -/
theorem typename_answered (ha : d.ObjectAnswers s R kept fields) {sub : List Expanded}
    (ho : Expanded.Occurs (R ∈ s.possibleTypes ·) expanded typenameField.name typenameField.name false sub) :
    (typenameField.name, .leaf "String" R) ∈ fields := by
  obtain ⟨k, hk, hkey, hname, -⟩ := hserves.keeps _ _ _ ho
  obtain ⟨g, hg, hgk, hgn⟩ := exists_collected_of_kept hc hu hserves hk
  have hkept : typenameField.name ∈ kept.map (·.key) := List.mem_map.2 ⟨k, hk, hkey⟩
  rw [← hgk.trans hkey] at hkept
  obtain ⟨first, -, hfirst, -, hfn⟩ := first_kept_of_collected hc hu hserves hg hkept
  rw [hgk.trans hkey] at hkept hfirst
  obtain ⟨⟨key, v⟩, hv, rfl⟩ := List.mem_map.1 ((ha.keys typenameField.name).2 hkept)
  have hanswer : v = .leaf "String" R := ha.typename _ hv first hfirst (hfn.trans (hgn.trans hname))
  exact hanswer ▸ hv

end Collected

/-! ## Shapes -/

/-- What the object `R` answers conforms to the shape `n`. -/
def AnswersConform (d : Document) (s : Schema) (r : Registry) (R : String) (expanded : List Expanded)
    (n : String) : Prop :=
  ∀ r', r'.Extends r → ∀ kept fields, d.Serves s R kept expanded → d.CompleteOn s R expanded →
    d.ObjectAnswers s R kept fields → ∃ shape, r'.lookup? n = some shape ∧ ShapeConforms r' shape (.object fields)

/-- The shape of an object, with the fields collected for it. -/
def ObjectSound (d : Document) (s : Schema) (r : Registry) (o : ObjectDefinition) (expanded : List Expanded)
    (n : String) : Prop :=
  (∃ collected, Expanded.collect s o.name expanded = .ok collected) ∧ d.AnswersConform s r o.name expanded n

theorem objectSound_mono ⦃r r' : Registry⦄ ⦃o : ObjectDefinition⦄ ⦃expanded : List Expanded⦄ ⦃n : String⦄
    (hext : r'.Extends r) (h : d.ObjectSound s r o expanded n) : d.ObjectSound s r' o expanded n :=
  ⟨h.1, fun r₂ h₂ => h.2 r₂ (h₂.trans hext)⟩

/-- A resolver whose fields are sound. -/
abbrev Resolves (d : Document) (s : Schema) (resolve : Schema.FieldResolver) : Prop :=
  Schema.Establishes (fun _ => True) (d.FieldSound s) resolve

theorem objectShape_sound {resolve : Schema.FieldResolver} (hs : s.Valid) (hd : d.Complete s)
    (hres : d.Resolves s resolve) {name? : Option String} ⦃o : ObjectDefinition⦄ ⦃expanded : List Expanded⦄
    ⦃n : String⦄ ⦃p p' : Progress⦄ (ho : s.find? o.name = some (.object o)) (_ : True)
    (h : Runs (s.objectShape resolve o expanded name?) p n p') :
    True ∧ p.Grows p' ∧ d.ObjectSound s p'.registry o expanded n := by
  obtain ⟨-, collected, qs, p₁, hc, -, hg₁, hall, hreg⟩ := Schema.objectShape_runs fieldSound_mono hres trivial h
  have hkeeps := (register_runs hreg).1
  refine ⟨trivial, hg₁.trans ((register_grows _ _).runs hreg), ⟨collected, hc⟩, ?_⟩
  intro r' hext kept fields hserves hcomplete ha
  have hfields : s.fieldsOf o.name = o.fields := Schema.fieldsOf_eq ho
  rw [← hfields] at hall
  have hR : o.name ∈ s.possibleTypes o.name := by simp [Schema.possibleTypes_object ho]
  have hu := Expanded.uniform_object ho expanded
  have hconf := fields_conform hs hd hc hu hserves hR hall hcomplete ha (hext.trans hkeeps.extends)
  exact ⟨_, hext.lookup? hkeeps.held, hconf.shape rfl rfl⟩

theorem abstractShape_sound {resolve : Schema.FieldResolver} (hs : s.Valid) (hd : d.Complete s)
    (hres : d.Resolves s resolve) {site : TypeDefinition} {name? : Option String} {expanded : List Expanded}
    {n : String} {p p' : Progress} (hsite : s.find? site.name = some site)
    (h : Runs (s.abstractShape resolve site expanded name?) p n p') :
    p.Grows p' ∧ ∀ R ∈ s.possibleTypes site.name, d.AnswersConform s p'.registry R expanded n := by
  obtain ⟨-, common, branches, collected, qs, vs, p₁, hsplit, hc, -, hg₁, hall, hvs, hreg⟩ :=
    Schema.abstractShape_runs fieldSound_mono objectSound_mono hres (objectShape_sound hs hd hres) trivial h
  have hkeeps := (register_runs hreg).1
  refine ⟨hg₁.trans ((register_grows _ _).runs hreg), ?_⟩
  intro R hR r' hext kept fields hserves hcomplete ha
  have hext₁ : r'.Extends p₁.registry := hext.trans hkeeps.extends
  have hsame : Expanded.SameFor s R (common ++ branches.get R) expanded := Expanded.split_sameFor hR hsplit
  have hu : Expanded.Uniform s site.name R common := Expanded.split_uniform hR hsplit
  refine ⟨_, hext.lookup? hkeeps.held, ?_⟩
  rcases hvs with ⟨rfl, rfl⟩ | ⟨htypename, hvs⟩
  · rw [← Schema.fieldsOf_eq hsite] at hall
    simp only [Branches.get, List.find?_nil, Option.map_none, Option.getD_none, List.append_nil] at hsame
    have hconf := fields_conform hs hd hc hu (hserves.congr hsame) hR hall (hcomplete.congr hsame) ha hext₁
    exact hconf.shape (Schema.isOutput_abstractKind _ _) (Schema.variants_of_abstractKind site.kind [] rfl)
  · obtain ⟨o, ho⟩ := Schema.object_of_mem_possibleTypes hs.distinct hs.objects hR
    have hcommon := Schema.ne_nil_of_returnsTypename hc htypename
    obtain ⟨v, hv, rfl⟩ := hvs.every R hR o ho (by simp [hcommon])
    obtain ⟨-, o', branch, ho', hbranch, ⟨fields', hc'⟩, hconf⟩ := hvs.made v hv
    obtain rfl : o = o' := by simpa using ho.symm.trans ho'
    have hname : o.name = v.typename := Schema.find?_name ho
    rw [hname] at hc' hconf
    rw [hbranch (Schema.possibleTypes_nodup hs.distinct hs.members site.name)] at hc' hconf
    have hserves' := hserves.congr hsame
    obtain ⟨shape', hl, hconf'⟩ := hconf r' hext₁ kept fields hserves' (hcomplete.congr hsame) ha
    obtain ⟨sub, hocc⟩ := Schema.occurs_of_returnsTypename hc htypename
    have hmem := typename_answered hc' (Expanded.uniform_object ho _) hserves' ha
      (Expanded.occurs_append.2 (.inl ((hu _ _ _ _).1 hocc)))
    refine .variant ?_ hmem hl hconf'
    rwa [Schema.variants_of_abstractKind site.kind vs rfl]

/-- A field is sound if the values of its innermost type conform to the base. -/
theorem fieldSound_of_base {r : Registry} {f : FieldDefinition} {expanded : List Expanded} {base : BaseType}
    {definition : TypeDefinition} (hdef : s.find? f.type.baseName = some definition)
    (hbase : ∀ r', r'.Extends r → ∀ a selections v nullable, s.Covariant a f.type →
      d.Feeds s a.baseName selections expanded → d.Answers s (.named a.baseName) selections v → v ≠ .null →
      Conforms r' (.named base nullable) v) :
    d.FieldSound s r f expanded (.ofTypeRef f.type base) :=
  ⟨⟨definition, hdef⟩, fun r' hext a selections _ hcov hfeeds hv =>
    conforms_ofTypeRef (fun v nullable hne hv => hbase r' hext a selections v nullable hcov hfeeds hv hne)
      hcov.layers hv⟩

/-- The answers of run-time types conform to the shape of a composite type. -/
theorem fieldSound_of_answers {r : Registry} {f : FieldDefinition} {expanded : List Expanded} {n : String}
    {definition : TypeDefinition} (hdef : s.find? f.type.baseName = some definition)
    (hcomp : definition.isComposite = true)
    (h : ∀ R ∈ s.possibleTypes f.type.baseName, d.AnswersConform s r R expanded n) :
    d.FieldSound s r f expanded (.ofTypeRef f.type (.generated n)) := by
  refine fieldSound_of_base hdef fun r' hext a selections v nullable hcov hfeeds hv hne => ?_
  rcases hv.base_cases hne hcov with ⟨_, _, hs, -⟩ | ⟨_, _, hs, -⟩ | ⟨R, kept, fields, hRa, hR, hkept, ha, rfl⟩
  · cases hdef.symm.trans hs
    cases hcomp
  · cases hdef.symm.trans hs
    cases hcomp
  · obtain ⟨shape, hl, hconf⟩ :=
      h R hR r' hext kept fields (hfeeds.serves R hRa kept hkept) (hfeeds.complete R hRa) ha
    exact .shape hl hconf

/-- One more level of fields is sound. -/
theorem fieldTypeOver_sound {resolve : Schema.FieldResolver} (hs : s.Valid) (hd : d.Complete s)
    (hres : d.Resolves s resolve) : d.Resolves s (s.fieldTypeOver resolve) := by
  intro f expanded p t p' _ h
  obtain ⟨base, hbase, rfl⟩ := Schema.fieldTypeOver_runs h
  cases hbase with
  | @scalar sd hf =>
    refine ⟨trivial, .refl _, fieldSound_of_base hf fun r' hext a selections v nullable hcov hfeeds hv hne => ?_⟩
    have hname : sd.name = f.type.baseName := Schema.find?_name hf
    rcases hv.base_cases hne hcov with ⟨x, _, -, rfl⟩ | ⟨_, _, he, -⟩ | ⟨R, _, _, -, hR, -⟩
    · rw [hname]
      exact .scalar
    · cases hf.symm.trans he
    · cases (Schema.isLeaf_of_scalar hf).symm.trans (Schema.isLeaf_of_mem_possibleTypes hR)
  | @enumeration ed n _ hf hr =>
    have hkeeps := (register_runs hr).1
    refine ⟨trivial, (register_grows _ _).runs hr, ?_⟩
    refine fieldSound_of_base hf fun r' hext a selections v nullable hcov hfeeds hv hne => ?_
    have hname : ed.name = f.type.baseName := Schema.find?_name hf
    rcases hv.base_cases hne hcov with ⟨_, _, hsc, -⟩ | ⟨x, ed', he, hx, rfl⟩ | ⟨R, _, _, -, hR, -⟩
    · cases hf.symm.trans hsc
    · cases hf.symm.trans he
      rw [← hname]
      exact .shape (hext.lookup? hkeeps.held) (.enumeration rfl hx)
    · cases (Schema.isLeaf_of_enumeration hf).symm.trans (Schema.isLeaf_of_mem_possibleTypes hR)
  | @object o n _ hf hr =>
    obtain ⟨-, hg, -, hsound⟩ := objectShape_sound hs hd hres (Schema.find?_self hf) trivial hr
    refine ⟨trivial, hg, fieldSound_of_answers hf rfl fun R hR => ?_⟩
    rw [Schema.possibleTypes_object hf, List.mem_singleton] at hR
    rwa [hR, ← Schema.find?_name hf]
  | @abstract site n _ hf hk hr =>
    obtain ⟨hg, hsound⟩ := abstractShape_sound hs hd hres (Schema.find?_self hf) hr
    have hcomp : site.isComposite = true := by
      cases site with
      | object | interface | union => rfl
      | scalar | enumeration | input => simp [TypeDefinition.kind] at hk
    refine ⟨trivial, hg, fieldSound_of_answers hf hcomp fun R hR => ?_⟩
    exact hsound R ((Schema.find?_name hf).symm ▸ hR)

theorem fieldType_sound (hs : s.Valid) (hd : d.Complete s) (levels : Nat) : d.Resolves s (s.fieldType levels) :=
  Schema.fieldType_induct (P := fun resolve => d.Resolves s resolve) (fun _ _ _ _ _ _ h => absurd h runs_throw)
    (fun _ => fieldTypeOver_sound hs hd) levels

/-- **Shape soundness.** In a valid schema, for a document whose composite fields select something,
every response that execution can return for an operation conforms to the shape of its data. -/
theorem response_conforms (hs : s.Valid) (hd : d.Complete s) {op : Operation} (hop : op ∈ d.operations)
    {shape : OperationShape} {p p' : Progress} (h : Runs (s.generateOperation d op) p shape p') {v : Response}
    (hv : d.Responds s op v) :
    ∃ data, p'.registry.lookup? shape.dataType = some data ∧ ShapeConforms p'.registry data v := by
  obtain ⟨hac, root, p₁, hroot, hdata, hvars⟩ := Schema.operationShapes_runs (Schema.generateOperation_runs.1 h)
  obtain ⟨-, -, -, hconf⟩ :=
    objectShape_sound hs hd (fieldType_sound hs hd _) (Schema.find?_self hroot) trivial hdata
  have hext : p'.registry.Extends p₁.registry := ((Schema.variableProperties_grows _).runs hvars).registry
  have hfeeds := feeds_of_opens hd (expand_opens hac) (hd.operations op hop)
  cases hv with
  | null hnn => cases hnn
  | nonNull hne hv =>
    rcases hv.base_cases (a := .named (s.rootType op.kind)) hne (.refl s _) with
      ⟨_, _, hsc, -⟩ | ⟨_, _, he, -⟩ | ⟨R, kept, fields, hR, -, hkept, ha, rfl⟩
    · cases hroot.symm.trans hsc
    · cases hroot.symm.trans he
    · rw [TypeRef.baseName] at hR
      have hRroot : R = root.name := by
        rw [Schema.possibleTypes_object hroot, List.mem_singleton] at hR
        exact hR.trans (Schema.find?_name hroot).symm
      have hserves := hfeeds.serves R hR kept hkept
      have hcomplete := hfeeds.complete R hR
      rw [hRroot] at hserves hcomplete ha
      exact hconf _ hext kept fields hserves hcomplete ha

/-! A query for a pet of the union, answered with a dog that is not asked to bark. -/

def kennel : Schema :=
  { Schema.pets with
    types := .object ⟨"Query", none, [], [⟨"pet", .nonNull (.named "Pet"), none⟩]⟩ :: Schema.pets.types }

def petQuery : Operation :=
  ⟨some "Pet", .query, [], [.field none "pet" false Schema.petSelections], "query Pet \x7b pet \x7b ...\x7d \x7d"⟩

def petDocument : Document := ⟨[petQuery], Schema.barks.fragments⟩

def rex : Response :=
  .object [("pet", .object [("__typename", .leaf "String" "Dog"), ("name", .leaf "String" "Rex")])]

theorem kennel_valid : kennel.Valid where
  distinct := by
    unfold Schema.Distinct
    decide
  implements := by
    intro o ho i hi t ht f hf
    simp only [kennel, Schema.pets, List.mem_cons, List.not_mem_nil, reduceCtorEq, TypeDefinition.object.injEq,
      false_or, or_false] at ho
    rcases ho with rfl | rfl | rfl
    · cases hi
    all_goals
      obtain rfl := List.mem_singleton.1 hi
      cases ht
      obtain rfl := List.mem_singleton.1 hf
      exact ⟨_, rfl, .refl _ _⟩
  members := by
    intro u hu
    simp only [kennel, Schema.pets, List.mem_cons, List.not_mem_nil, reduceCtorEq, TypeDefinition.union.injEq,
      false_or, or_false] at hu
    subst hu
    decide
  objects := by
    intro u hu m hm
    simp only [kennel, Schema.pets, List.mem_cons, List.not_mem_nil, reduceCtorEq, TypeDefinition.union.injEq,
      false_or, or_false] at hu
    subst hu
    simp only [List.mem_cons, List.not_mem_nil, or_false] at hm
    rcases hm with rfl | rfl
    · exact ⟨_, rfl⟩
    · exact ⟨_, rfl⟩
  builtin := by decide

/-- Only `pet` is of a composite type. -/
theorem kennel_leaf {R name : String} {f : FieldDefinition} (hR : R ∈ ["Dog", "Cat"])
    (hf : kennel.fieldOn? R name = some f) :
    ∀ t, kennel.find? f.type.baseName = some t → t.isComposite = false := by
  have hstring : f ∈ ([⟨"name", .named "String", none⟩, ⟨"bark", .named "String", none⟩] : List FieldDefinition) := by
    unfold Schema.fieldOn? at hf
    split at hf
    next => cases hf
    next =>
      have := List.mem_of_find?_eq_some hf
      simp only [List.mem_cons, List.not_mem_nil, or_false] at hR
      rcases hR with rfl | rfl
      · exact this
      · exact List.mem_cons.2 (.inl (List.mem_singleton.1 this))
  intro t ht
  simp only [List.mem_cons, List.not_mem_nil, or_false] at hstring
  rcases hstring with rfl | rfl
  · cases ht
    rfl
  · cases ht
    rfl

theorem petDocument_complete : petDocument.Complete kennel where
  operations := by
    intro op hop
    obtain rfl := List.mem_singleton.1 hop
    simp only [petQuery, Schema.petSelections, Selection.CompleteAll, Selection.Complete, and_true]
    intro R hR f hf
    obtain rfl := List.mem_singleton.1 hR
    cases hf
    refine ⟨fun _ _ _ => by simp, ?_, ?_⟩
    · intro R hR f hf t ht hc
      cases (kennel_leaf hR hf t ht).symm.trans hc
    · intro R hR f hf t ht hc
      cases (kennel_leaf hR hf t ht).symm.trans hc
  fragments := by
    intro f hf
    obtain rfl := List.mem_singleton.1 hf
    refine ⟨fun R hR f hf => ⟨fun t ht hc => ?_, trivial⟩, trivial⟩
    cases (kennel_leaf (List.mem_cons.2 (.inl (List.mem_singleton.1 hR))) hf t ht).symm.trans hc

/-- The run-time type is a dog; the name is kept and the fragment is not. -/
theorem rex_collects : petDocument.Collects kennel "Dog" Schema.petSelections
    [⟨"__typename", "__typename", []⟩, ⟨"name", "name", []⟩] :=
  .field (.inline (by decide) (.field (.leaveOut rfl .nil)) .nil)

/-- What answers the field `pet`. -/
theorem rex_answers : petDocument.Answers kennel (.named "Pet") (Schema.petSelections ++ [])
    (.object [("__typename", .leaf "String" "Dog"), ("name", .leaf "String" "Rex")]) := by
  have hR : "Dog" ∈ kennel.possibleTypes "Pet" := by decide
  refine .object hR rex_collects (by decide) (by simp) ?_ ?_
  · intro f hf k hk hname
    simp only [List.mem_cons, List.not_mem_nil, or_false] at hf
    rcases hf with rfl | rfl
    · rfl
    · cases hk
      exact absurd hname (by decide)
  · intro f hf k hk g hg
    simp only [List.mem_cons, List.not_mem_nil, or_false] at hf
    rcases hf with rfl | rfl
    · cases hk
      cases hg
    · cases hk
      cases hg
      exact .scalar rfl

theorem rex_responds : petDocument.Responds kennel petQuery rex := by
  have hR : "Query" ∈ kennel.possibleTypes "Query" := by decide
  refine .nonNull (by simp [rex]) (.object hR (.field .nil) (by decide) (by simp) ?_ ?_)
  · intro f hf k hk hname
    obtain rfl := List.mem_singleton.1 hf
    cases hk
    exact absurd hname (by decide)
  · intro f hf k hk g hg
    obtain rfl := List.mem_singleton.1 hf
    cases hk
    cases hg
    exact .nonNull (by simp) rex_answers

theorem rex_conforms : ∃ shape p, Runs (kennel.generateOperation petDocument petQuery) .start shape p ∧
    ∃ data, p.registry.lookup? shape.dataType = some data ∧ ShapeConforms p.registry data rex := by
  have hrun : Runs (kennel.generateOperation petDocument petQuery) .start
      ⟨some "Pet", .query, "PetData", [], petDocument.operationSource petQuery⟩ _ := runs_of_outcome (by cbv)
  exact ⟨_, _, hrun,
    response_conforms kennel_valid petDocument_complete (List.mem_singleton.2 rfl) hrun rex_responds⟩

end Document

end TypedQuery
