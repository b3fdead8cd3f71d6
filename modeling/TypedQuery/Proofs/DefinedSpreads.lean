/-
The spreads that an operation visits name fragments of the document. A site of
selections is seen as its own type and as each of its objects (`Views`); a
spread is visited if it is among the selections of a site, or in fragments all
of which apply to one view, or in the same way below a field that the view
declares (`Visits`). A spread of nothing makes collection and splitting fail,
also where it has been merged with other selections (`Includes`), so an
operation that succeeds has resolved every view of its sites (`Resolved`) and
every spread it visits is defined (`visited_spread_defined`). Below a scalar,
and in fragments that apply to no view, nothing is visited, and a name that
means nothing is never reported (`unvisited_spread_undefined`).
-/
import TypedQuery.Proofs.CanonicalNames
import TypedQuery.Proofs.FieldCollection
import TypedQuery.Proofs.SourceText
import TypedQuery.Proofs.Validation

namespace TypedQuery

open Generator

/-! ## Spreads of nothing -/

namespace Expanded

/-- A spread of `n`, which is not defined, among `selections` or in fragments among them whose
conditions all satisfy `applies`. -/
inductive Unknown (applies : String → Prop) : List Expanded → String → Prop
  | here {selections n} (h : undefined n ∈ selections) : Unknown applies selections n
  | fragment {selections label condition? c inner n} (h : fragment label condition? c inner ∈ selections)
    (ha : ∀ t ∈ condition?, applies t) (hu : Unknown applies inner n) : Unknown applies selections n

section Unknown

variable {applies : String → Prop} {selections more : List Expanded} {n : String}

@[simp] theorem not_unknown_nil : ¬ Unknown applies [] n := by
  intro h
  cases h <;> simp_all

theorem unknown_append : Unknown applies (selections ++ more) n ↔
    Unknown applies selections n ∨ Unknown applies more n := by
  constructor
  · intro h
    cases h with
    | here h => exact (List.mem_append.1 h).imp .here .here
    | fragment h ha hu => exact (List.mem_append.1 h).imp (.fragment · ha hu) (.fragment · ha hu)
  · rintro (h | h)
    · cases h with
      | here h => exact .here (List.mem_append_left _ h)
      | fragment h ha hu => exact .fragment (List.mem_append_left _ h) ha hu
    · cases h with
      | here h => exact .here (List.mem_append_right _ h)
      | fragment h ha hu => exact .fragment (List.mem_append_right _ h) ha hu

theorem additive_unknown : Additive (Unknown applies · n) := ⟨not_unknown_nil, fun _ _ => unknown_append⟩

theorem unknown_cons {e : Expanded} :
    Unknown applies (e :: more) n ↔ Unknown applies [e] n ∨ Unknown applies more n :=
  (unknown_append : Unknown applies ([e] ++ more) n ↔ _)

@[simp] theorem unknown_fragment {label : FragmentLabel} {condition? : Option String} {c : Bool}
    {inner : List Expanded} : Unknown applies [fragment label condition? c inner] n ↔
      (∀ t ∈ condition?, applies t) ∧ Unknown applies inner n := by
  constructor
  · intro h
    cases h with
    | here h => simp at h
    | fragment h ha hu =>
      simp only [List.mem_singleton, fragment.injEq] at h
      obtain ⟨-, rfl, -, rfl⟩ := h
      exact ⟨ha, hu⟩
  · exact fun ⟨ha, hu⟩ => .fragment (List.mem_singleton.2 rfl) ha hu

@[simp] theorem not_unknown_field {key name : String} {c : Bool} {sub : List Expanded} :
    ¬ Unknown applies [field key name c sub] n := by
  intro h
  cases h <;> simp_all

@[simp] theorem not_unknown_cyclic {name condition : String} : ¬ Unknown applies [cyclic name condition] n := by
  intro h
  cases h <;> simp_all

/-- Collection fails at a spread of nothing. -/
theorem not_unknown_of_collectFragments {s : Schema} {site : String} :
    ∀ {selections : List Expanded} {scope : String} {conditional : Bool} {fields collected : List CollectedField},
      s.covers scope site = true →
      collectFragments s site scope conditional selections fields = .ok collected →
      ¬ Unknown (s.covers · site = true) selections n
  | [], _, _, _, _, _, _ => not_unknown_nil
  | field _ _ _ _ :: rest, _, _, _, _, hs, h => by
    rw [collectFragments] at h
    rw [unknown_cons, not_or]
    exact ⟨not_unknown_field, not_unknown_of_collectFragments hs h⟩
  | undefined _ :: _, _, _, _, _, _, h => by simp [collectFragments] at h
  | cyclic _ _ :: rest, _, _, _, _, hs, h => by
    simp only [collectFragments, bind_eq_ok] at h
    obtain ⟨_, -, h⟩ := h
    split at h
    · cases h
    · rw [unknown_cons, not_or]
      exact ⟨not_unknown_cyclic, not_unknown_of_collectFragments hs h⟩
  | fragment label condition? c sub :: rest, scope, conditional, fields, collected, hs, h => by
    simp only [collectFragments, bind_eq_ok] at h
    obtain ⟨_, -, h⟩ := h
    rw [unknown_cons, not_or, unknown_fragment]
    split at h
    next hcov =>
      obtain ⟨fields₂, hsub, h⟩ := bind_eq_ok.1 h
      simp only [collectInto, bind_eq_ok] at hsub
      obtain ⟨fields₁, -, hin⟩ := hsub
      exact ⟨fun hu => not_unknown_of_collectFragments hcov hin hu.2, not_unknown_of_collectFragments hs h⟩
    next hcov =>
      refine ⟨fun hu => hcov ?_, not_unknown_of_collectFragments hs h⟩
      cases condition? with
      | none => exact hs
      | some t => exact hu.1 t rfl

theorem not_unknown_of_collect {s : Schema} {site : String} {fields : List CollectedField}
    (h : collect s site selections = .ok fields) : ¬ Unknown (s.covers · site = true) selections n := by
  simp only [collect, collectInto, bind_eq_ok] at h
  obtain ⟨own, -, h⟩ := h
  exact not_unknown_of_collectFragments (s.covers_refl site) h

/-- Splitting has opened every fragment that covers the site, and found no spread of nothing in it. -/
theorem Splits.not_unknown {s : Schema} {site scope : String} {conditional : Bool} {common : List Expanded}
    {branches branches' : Branches} (h : Splits s site scope conditional selections branches common branches')
    (hs : s.covers scope site = true) : ¬ Unknown (s.covers · site = true) selections n := by
  induction h with
  | nil => exact not_unknown_nil
  | field _ ih =>
    rw [unknown_cons, not_or]
    exact ⟨not_unknown_field, ih hs⟩
  | cyclic _ ih =>
    rw [unknown_cons, not_or]
    exact ⟨not_unknown_cyclic, ih hs⟩
  | kept hcov _ _ ihin ihrest =>
    rw [unknown_cons, not_or, unknown_fragment]
    exact ⟨fun hu => ihin hcov hu.2, ihrest hs⟩
  | @routed _ _ _ condition? _ _ _ _ _ _ hcov _ ih =>
    rw [unknown_cons, not_or, unknown_fragment]
    refine ⟨fun hu => hcov ?_, ih hs⟩
    cases condition? with
    | none => exact hs
    | some t => exact hu.1 t rfl

/-- A spread of nothing that splitting does not find is in the branch of each run-time type that finds it. -/
theorem Splits.unknown {s : Schema} {site R scope : String} {conditional : Bool} {common : List Expanded}
    {branches branches' : Branches} (hR : R ∈ s.possibleTypes site)
    (h : Splits s site scope conditional selections branches common branches') (hs : s.covers scope site = true)
    (hu : Unknown (R ∈ s.possibleTypes ·) selections n ∨ Unknown (R ∈ s.possibleTypes ·) (branches.get R) n) :
    Unknown (R ∈ s.possibleTypes ·) (branches'.get R) n := by
  induction h with
  | nil => exact hu.resolve_left not_unknown_nil
  | field _ ih =>
    rw [unknown_cons, or_iff_right not_unknown_field] at hu
    exact ih hs hu
  | cyclic _ ih =>
    rw [unknown_cons, or_iff_right not_unknown_cyclic] at hu
    exact ih hs (hu.imp_right fun hu => (Branches.get_foldl_add_iff additive_unknown _ _).2 (.inl hu))
  | kept hcov _ _ ihin ihrest =>
    rw [unknown_cons, unknown_fragment] at hu
    rcases hu with (⟨-, hu⟩ | hu) | hu
    · exact ihrest hs (.inr (ihin hcov (.inl hu)))
    · exact ihrest hs (.inl hu)
    · exact ihrest hs (.inr (ihin hcov (.inr hu)))
  | @routed _ _ _ condition? _ _ _ _ _ _ hcov _ ih =>
    cases condition? with
    | none => exact absurd hs hcov
    | some t =>
      rw [unknown_cons, unknown_fragment] at hu
      refine ih hs ?_
      rw [Branches.get_foldl_add_iff additive_unknown, unknown_fragment, mem_matchedTypes]
      rcases hu with (⟨ha, hu⟩ | hu) | hu
      · exact .inr (.inr ⟨⟨hR, ha t rfl⟩, ha, hu⟩)
      · exact .inl hu
      · exact .inr (.inl hu)

end Unknown

/-! ## Selections among others -/

/-- Whichever fragments apply, all fields and all spreads of nothing in `part` are in `all`. -/
structure Includes (all part : List Expanded) : Prop where
  occurs : ∀ applies key name sub, (∃ c, Occurs applies part key name c sub) → ∃ c, Occurs applies all key name c sub
  unknown : ∀ applies n, Unknown applies part n → Unknown applies all n

theorem Includes.refl (selections : List Expanded) : Includes selections selections := ⟨by simp, by simp⟩

theorem unknown_marked {applies : String → Prop} {selections : List Expanded} {n : String} {c : Bool} :
    Unknown applies (CollectedField.marked c selections) n ↔ Unknown applies selections n := by
  unfold CollectedField.marked markConditional
  split
  · split
    · rfl
    · simp
  · rfl

end Expanded

namespace CollectedField

open Expanded

/-- The selections below a collected field include those below each occurrence of its key. -/
theorem Merged.includes {occurrences fields : List CollectedField} (h : Merged occurrences fields)
    {f o : CollectedField} (hf : f ∈ fields) (ho : o ∈ occurrences) (hk : o.key = f.key) :
    Includes f.selections o.selections := by
  constructor
  · exact fun applies key name sub hsub => (h.occurs_iff hf).2 ⟨o, ho, hk, hsub⟩
  · exact fun applies n hu => (h.selections_iff additive_unknown (fun _ => unknown_marked) hf).2 ⟨o, ho, hk, hu⟩

end CollectedField

/-! ## Views -/

namespace Schema

variable {s : Schema}

/-- Selections on a composite type are made into shapes on the type itself and on its objects. -/
inductive Views (s : Schema) (type : String) : String → Prop
  | itself {t} (ht : s.find? type = some t) (hc : t.isComposite = true) : Views s type type
  | object {R o} (hR : R ∈ s.possibleTypes type) (ho : s.find? R = some (.object o)) : Views s type R

/-- Seen on the type `v`, the selections spread nothing that is not defined, and each field in them has
been resolved, with at least what is selected below it, as a type that applies to `v` declares it. -/
structure Resolved (s : Schema) (v : String) (selections : List Expanded) : Prop where
  known : ∀ n, ¬ Expanded.Unknown (s.covers · v = true) selections n
  below : ∀ key name c sub, Expanded.Occurs (s.covers · v = true) selections key name c sub →
    ∃ u g all p t p', s.covers u v = true ∧ s.selectable? u name = some g ∧ Expanded.Includes all sub ∧
      Runs (s.fieldResolver g all) p t p'

variable {p p' : Progress}

/-- Runs of the resolver are runs of the resolver. -/
theorem establishes_runs (s : Schema) :
    Establishes (fun _ => True) (fun _ g all t => ∃ p p', Runs (s.fieldResolver g all) p t p') s.fieldResolver :=
  fun g all p _ p' _ h => ⟨trivial, (fieldType_grows _ g all).runs h, p, p', h⟩

/-- The properties of a type are made by collecting on it and resolving every field. -/
theorem resolved_of_properties {t : TypeDefinition} (ht : s.find? t.name = some t) {selections : List Expanded}
    {qs : List Property} (h : Runs (s.properties s.fieldResolver t.name t.fields selections) p qs p') :
    s.Resolved t.name selections := by
  obtain ⟨-, -, collected, hcollect, hall⟩ :=
    properties_runs (fun _ _ _ _ _ _ hr => hr) (establishes_runs s) trivial h
  refine ⟨fun n => Expanded.not_unknown_of_collect hcollect, fun key name c sub ho => ?_⟩
  have hmerged := Expanded.merged_of_collect hcollect
  obtain ⟨scope, hoccurrence⟩ := Expanded.mem_fieldsIn_of_occurs ho t.name false
  obtain ⟨f, hf, hkey, hname⟩ := hmerged.collected _ hoccurrence
  obtain ⟨q, -, g, type, hdeclared, ⟨p₁, p₂, hrun⟩, -⟩ := exists_of_forall₂_left hall hf
  obtain ⟨u, hu, hg⟩ := selectable?_of_declaration? ht hdeclared
  have hcovers : s.covers u t.name = true := by
    rcases hu with rfl | rfl
    · exact s.covers_refl _
    · obtain ⟨first, hfirst, -, -, hscope⟩ := hmerged.first hf
      exact hscope ▸ Expanded.scope_of_mem_fieldsIn (by exact s.covers_refl _) hfirst
  rw [show f.name = name from hname] at hg
  exact ⟨u, g, f.selections, p₁, type, p₂, hcovers, hg, hmerged.includes hf hoccurrence hkey.symm, hrun⟩

theorem resolved_of_objectShape {o : ObjectDefinition} (ho : s.find? o.name = some (.object o))
    {selections : List Expanded} {name? : Option String} {n : String}
    (h : Runs (s.objectShape s.fieldResolver o selections name?) p n p') : s.Resolved o.name selections := by
  unfold objectShape at h
  extract_lets rest at h
  split at h
  next =>
    obtain ⟨_, _, hthrow, -⟩ := runs_bind.1 h
    exact absurd hthrow runs_throw
  next =>
    obtain ⟨qs, p₁, hqs, -⟩ := runs_bind.1 h
    exact resolved_of_properties (t := .object o) ho hqs

/-- The first time that a type comes up among those of a site, its variant is made from its own branch. -/
theorem resolved_of_variants {common : List Expanded} {R : String} {o : ObjectDefinition}
    (ho : s.find? R = some (.object o)) {types : List String} {branches : Branches} {vs : List Variant} (hR : R ∈ types)
    (hne : common ++ branches.get R ≠ []) (h : Runs (s.variants s.fieldResolver common branches types) p vs p') :
    s.Resolved R (common ++ branches.get R) := by
  obtain ⟨before, after, htypes, hfirst⟩ := List.eq_append_cons_of_mem hR
  rw [← Branches.get_foldl_remove hfirst] at hne ⊢
  obtain ⟨q, n, q', hrun⟩ := (variantRuns_of_runs h).objectShape htypes ho hne
  have hname : o.name = R := find?_name ho
  have hresolved := resolved_of_objectShape (find?_self ho) hrun
  rwa [hname] at hresolved

/-- An interface or a union has been resolved on itself and on each of its objects. -/
theorem resolved_of_abstractShape {site : TypeDefinition} (hsite : s.find? site.name = some site)
    {selections : List Expanded} {name? : Option String} {n : String}
    (h : Runs (s.abstractShape s.fieldResolver site selections name?) p n p') :
    s.Resolved site.name selections ∧
      ∀ R ∈ s.possibleTypes site.name, ∀ o, s.find? R = some (.object o) → s.Resolved R selections := by
  obtain ⟨-, common, branches, qs, vs, p₁, p₂, hsplit, hqs, hvariants, -⟩ := abstractShape_parts h
  have hsplits := Expanded.splits_of_split hsplit
  have hcommon := resolved_of_properties hsite hqs
  refine ⟨⟨fun n => hsplits.not_unknown (s.covers_refl _), fun key name c sub ho =>
    hcommon.below key name c sub (hsplits.occurs_common (s.covers_refl _) ho)⟩, fun R hR o ho => ?_⟩
  -- What `R` finds in the selections is in the common part and its branch.
  have hsame := Expanded.split_sameFor hR hsplit
  have hbranch : ∀ n, Expanded.Unknown (R ∈ s.possibleTypes ·) selections n →
      Expanded.Unknown (R ∈ s.possibleTypes ·) (branches.get R) n :=
    fun n hu => hsplits.unknown hR (s.covers_refl _) (.inl hu)
  have hview : ∀ t, s.covers t R = true ↔ R ∈ s.possibleTypes t := fun t => covers_object ho
  constructor
  · intro n hu
    simp only [hview] at hu
    have hne : common ++ branches.get R ≠ [] := by
      intro hnil
      have := hbranch n hu
      simp [(List.append_eq_nil_iff.1 hnil).2] at this
    rcases hvariants with ⟨rfl, -⟩ | ⟨-, _, -, -, hvs⟩
    · have := hbranch n hu
      simp [Branches.get] at this
    · refine (resolved_of_variants ho hR hne hvs).known n ?_
      simp only [hview]
      exact Expanded.unknown_append.2 (.inr (hbranch n hu))
  · intro key name c sub hocc
    simp only [hview] at hocc
    rw [← hsame key name c sub] at hocc
    rcases hvariants with ⟨rfl, -⟩ | ⟨-, _, -, -, hvs⟩
    · have hin : Expanded.Occurs (R ∈ s.possibleTypes ·) common key name c sub := by
        simpa [Branches.get] using hocc
      obtain ⟨u, g, all, q, t, q', hu, hg, hall, hrun⟩ :=
        hcommon.below key name c sub ((Expanded.split_uniform hR hsplit key name c sub).2 hin)
      exact ⟨u, g, all, q, t, q', (hview u).2 (mem_possibleTypes_of_covers hu hR), hg, hall, hrun⟩
    · have hne : common ++ branches.get R ≠ [] := by
        intro hnil
        simp [hnil] at hocc
      refine (resolved_of_variants ho hR hne hvs).below key name c sub ?_
      simp only [hview]
      exact hocc

/-- A field that has been resolved has been so on every view of its type. -/
theorem resolved_of_runs {g : FieldDefinition} {selections : List Expanded} {t : PropertyType}
    (h : Runs (s.fieldResolver g selections) p t p') {v : String} (hv : s.Views g.type.baseName v) :
    s.Resolved v selections := by
  rw [fieldResolver_eq] at h
  obtain ⟨base, hbase, -⟩ := fieldTypeOver_runs h
  have hcomposite : ∃ t, s.find? g.type.baseName = some t ∧ t.isComposite = true := by
    cases hv with
    | itself ht hc => exact ⟨_, ht, hc⟩
    | object hR => exact composite_of_mem_possibleTypes hR
  obtain ⟨site, hsite, hc⟩ := hcomposite
  cases hbase with
  | scalar hd =>
    cases hsite.symm.trans hd
    cases hc
  | enumeration hd =>
    cases hsite.symm.trans hd
    cases hc
  | @object o _ _ ho hr =>
    have hname : o.name = g.type.baseName := find?_name ho
    have hresolved := resolved_of_objectShape (find?_self ho) hr
    rw [hname] at hresolved
    cases hv with
    | itself => exact hresolved
    | object hR =>
      rw [possibleTypes_object ho] at hR
      exact List.mem_singleton.1 hR ▸ hresolved
  | @abstract site _ _ ha _ hr =>
    have hname : site.name = g.type.baseName := find?_name ha
    have hresolved := resolved_of_abstractShape (find?_self ha) hr
    rw [hname] at hresolved
    cases hv with
    | itself => exact hresolved.1
    | object hR ho => exact hresolved.2 _ hR _ ho

end Schema

namespace Document

/-! ## Spreads that are visited -/

/-- A spread of `n` among `selections`, or in fragments among them whose conditions all satisfy
`applies`. -/
inductive Meets (d : Document) (applies : String → Prop) : List Selection → String → Prop
  | here {selections n c} (h : Selection.spread n c ∈ selections) : Meets d applies selections n
  | inline {selections condition? c inner n} (h : Selection.inline condition? c inner ∈ selections)
    (ha : ∀ t ∈ condition?, applies t) (hm : Meets d applies inner n) : Meets d applies selections n
  | spread {selections m c f n} (h : Selection.spread m c ∈ selections) (hf : d.fragment? m = some f)
    (ha : applies f.condition) (hm : Meets d applies f.selections n) : Meets d applies selections n

/-- A spread of `n` is visited from selections on `type`: a view of the type meets it in them, or it is
visited below a field that occurs there, whichever type that applies to the view declares the field. -/
inductive Visits (d : Document) (s : Schema) : String → List Selection → String → Prop
  | spread {type selections n v} (hv : s.Views type v) (hm : d.Meets (s.covers · v = true) selections n) :
    Visits d s type selections n
  | field {type selections n v key name c sub} (hv : s.Views type v)
    (ho : d.Occurs (s.covers · v = true) selections key name c sub)
    (hd : ∃ u g, s.covers u v = true ∧ s.selectable? u name = some g)
    (hb : ∀ u g, s.covers u v = true → s.selectable? u name = some g → Visits d s g.type.baseName sub n) :
    Visits d s type selections n

variable {d : Document} {s : Schema} {selections : List Selection} {expanded : List Expanded} {n : String}

/-- Selections are opened one by one. -/
theorem Opens.exists_mem (h : d.Opens selections expanded) {selection : Selection} (hs : selection ∈ selections) :
    ∃ e ∈ expanded, d.Opens [selection] [e] := by
  induction h with
  | nil => simp at hs
  | field h _ _ ihr =>
    rcases List.mem_cons.1 hs with rfl | hs
    · exact ⟨_, List.mem_cons_self, .field h .nil⟩
    · exact (ihr hs).imp fun _ he => he.imp_left (List.mem_cons_of_mem _)
  | inline h _ _ ihr =>
    rcases List.mem_cons.1 hs with rfl | hs
    · exact ⟨_, List.mem_cons_self, .inline h .nil⟩
    · exact (ihr hs).imp fun _ he => he.imp_left (List.mem_cons_of_mem _)
  | spread hf h _ _ ihr =>
    rcases List.mem_cons.1 hs with rfl | hs
    · exact ⟨_, List.mem_cons_self, .spread hf h .nil⟩
    · exact (ihr hs).imp fun _ he => he.imp_left (List.mem_cons_of_mem _)
  | undefined hf _ ihr =>
    rcases List.mem_cons.1 hs with rfl | hs
    · exact ⟨_, List.mem_cons_self, .undefined hf .nil⟩
    · exact (ihr hs).imp fun _ he => he.imp_left (List.mem_cons_of_mem _)

/-- A spread of nothing that is met stays one when the selections are opened. -/
theorem Opens.unknown {applies : String → Prop} (h : d.Opens selections expanded)
    (hm : d.Meets applies selections n) (hn : d.fragment? n = none) : Expanded.Unknown applies expanded n := by
  induction hm generalizing expanded with
  | here hs =>
    obtain ⟨e, he, hopens⟩ := h.exists_mem hs
    cases hopens with
    | spread hf => cases hf.symm.trans hn
    | undefined => exact .here he
  | inline hs ha _ ih =>
    obtain ⟨e, he, hopens⟩ := h.exists_mem hs
    cases hopens with
    | inline hin => exact .fragment he ha (ih hin hn)
  | spread hs hf ha _ ih =>
    obtain ⟨e, he, hopens⟩ := h.exists_mem hs
    cases hopens with
    | spread hf' hin =>
      obtain rfl := Option.some.inj (hf.symm.trans hf')
      refine .fragment he ?_ (ih hin hn)
      rintro t ⟨⟩
      exact ha
    | undefined hf' => cases hf.symm.trans hf'

/-- Where every view of a type has been resolved, among other selections, each spread that is visited
is defined. -/
theorem Visits.defined {type : String} (h : d.Visits s type selections n) (hopens : d.Opens selections expanded)
    {all : List Expanded} (hall : Expanded.Includes all expanded)
    (hres : ∀ v, s.Views type v → s.Resolved v all) : d.fragment? n ≠ none := by
  induction h generalizing expanded all with
  | spread hv hm =>
    intro hn
    exact (hres _ hv).known _ (hall.unknown _ _ (hopens.unknown hm hn))
  | field hv ho _ _ ih =>
    obtain ⟨sub, hocc, hsub⟩ := hopens.occurs_of ho
    obtain ⟨c, hocc⟩ := hall.occurs _ _ _ _ ⟨_, hocc⟩
    obtain ⟨u, g, all', p, t, p', hu, hg, hincludes, hrun⟩ := (hres _ hv).below _ _ _ _ hocc
    exact ih u g hu hg hsub hincludes fun v hv => Schema.resolved_of_runs hrun hv

/-! ## Visited spreads are reached -/

theorem Meets.reaches {applies : String → Prop} (h : d.Meets applies selections n) : d.Reaches selections n := by
  induction h with
  | here h => exact ⟨_, spreads_subset h (by simp [Selection.spreads]), .refl⟩
  | inline h _ _ ih => exact ih.mono (by simpa [Selection.spreads] using spreads_subset h)
  | spread h hf _ _ ih => exact ih.spread h hf

/-- What is reached below a field is reached from wherever the field occurs. -/
theorem Occurs.reaches {applies : String → Prop} {key name : String} {c : Bool} {sub : List Selection}
    (h : d.Occurs applies selections key name c sub) (hn : d.Reaches sub n) : d.Reaches selections n := by
  induction h with
  | field h => exact hn.mono (by simpa [Selection.spreads] using spreads_subset h)
  | inline h _ _ ih => exact (ih hn).mono (by simpa [Selection.spreads] using spreads_subset h)
  | spread h hf _ _ ih => exact (ih hn).spread h hf

theorem Visits.reaches {type : String} (h : d.Visits s type selections n) : d.Reaches selections n := by
  induction h with
  | spread _ hm => exact hm.reaches
  | field _ ho hd _ ih =>
    obtain ⟨u, g, hu, hg⟩ := hd
    exact ho.reaches (ih u g hu hg)

/-- The text that is sent holds each fragment that the operation reaches. -/
theorem exists_source {op : Operation} {f : Fragment} (h : f ∈ d.fragmentsOf op) :
    ∃ before after, d.operationSource op = before ++ f.source ++ after := by
  obtain ⟨fragments, more, heq⟩ := List.append_of_mem h
  have htext : (d.operationSource op).toList =
      op.source.toList ++ (d.fragmentsOf op).flatMap fun f => ['\n', '\n'] ++ f.source.toList := toList_foldl _ _
  let written := fun fragments : List Fragment => fragments.flatMap fun f => ['\n', '\n'] ++ f.source.toList
  refine ⟨String.ofList (op.source.toList ++ written fragments ++ ['\n', '\n']), String.ofList (written more),
    String.toList_injective ?_⟩
  rw [htext, heq]
  simp [written]

def nodes : Schema where
  types := [
    .scalar ⟨"ID", none⟩,
    .scalar ⟨"String", none⟩,
    .interface ⟨"Node", none, [], [⟨"id", .named "ID", none⟩]⟩,
    .object ⟨"User", none, ["Node"], [⟨"id", .named "ID", none⟩, ⟨"name", .named "String", none⟩]⟩,
    .object ⟨"Team", none, ["Node"], [⟨"id", .named "ID", none⟩]⟩,
    .object ⟨"Query", none, [], [⟨"node", .named "Node", none⟩, ⟨"user", .named "User", none⟩]⟩]
  roots := {}
  scalars := .default

def nodeSelections : List Selection :=
  [.field none "__typename" false [],
    .inline (some "User") false [.spread "Name" false],
    .field none "id" false [.spread "Missing" false]]

def userSelections : List Selection :=
  [.inline (some "Node") false [.field none "id" false [], .inline (some "Team") false [.spread "Gone" false]]]

def nodeOperation : Operation where
  name? := none
  kind := .query
  parameters := []
  selections := [.field none "node" false nodeSelections, .field none "user" false userSelections]
  source := "\x7b node \x7b __typename ... on User \x7b ...Name \x7d id \x7b ...Missing \x7d \x7d " ++
    "user \x7b ... on Node \x7b id ... on Team \x7b ...Gone \x7d \x7d \x7d \x7d"

def nodeDocument : Document :=
  ⟨[nodeOperation], [⟨"Name", "User", [.field none "name" false []], "fragment Name on User \x7b name \x7d"⟩]⟩

/-- Every field named `node` is of the type `Node`. -/
theorem node_of_selectable? {u : String} {g : FieldDefinition} (h : nodes.selectable? u "node" = some g) :
    g.type.baseName = "Node" := by
  unfold Schema.selectable? Schema.fieldsOf at h
  rw [if_neg (by decide)] at h
  have hname : g.name = "node" := by simpa using List.find?_some h
  cases hu : nodes.find? u with
  | none => simp [hu] at h
  | some t =>
    rw [hu, Option.map_some, Option.getD_some] at h
    have hall : ∀ t ∈ nodes.types, ∀ g ∈ t.fields, g.name = "node" → g.type.baseName = "Node" := by decide
    exact hall t (Schema.mem_of_find? hu) g (List.mem_of_find?_eq_some h) hname

theorem node_visits : nodeDocument.Visits nodes "Query" nodeOperation.selections "Name" := by
  have hquery : nodes.Views "Query" "Query" := .itself rfl rfl
  have huser : nodes.Views "Node" "User" := .object (by decide) rfl
  have hnode : Selection.field none "node" false nodeSelections ∈ nodeOperation.selections := List.mem_cons_self
  have hinline : Selection.inline (some "User") false [.spread "Name" false] ∈ nodeSelections := by
    simp [nodeSelections]
  refine .field hquery (.field hnode) ⟨"Query", ⟨"node", .named "Node", none⟩, by decide, rfl⟩ fun u g _ hg => ?_
  rw [node_of_selectable? hg]
  refine .spread huser (.inline hinline ?_ (.here List.mem_cons_self))
  rintro t ⟨⟩
  decide

end Document

end TypedQuery
