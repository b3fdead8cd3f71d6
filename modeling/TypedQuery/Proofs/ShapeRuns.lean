/-
What a run that makes shapes has done, one lemma for each generator. They are
stated for a resolver that keeps an invariant `I` of the progress and
establishes `F` of the fields it resolves (`Establishes`), and say what the
registered shape holds; an induction over the levels (`fieldType_induct`)
then needs one case for each kind of field (`FieldRuns`). What composition
keeps holds of all generators of output shapes (`fieldType_closed`); so
whatever they return, they only let the registry grow (`fieldType_grows`).
-/
import TypedQuery.Proofs.GeneratorRuns
import TypedQuery.Proofs.Occurrence
import TypedQuery.Proofs.SchemaFacts
import TypedQuery.Proofs.Splitting

namespace TypedQuery

open Generator

namespace Schema

/-! ## Properties that composition keeps -/

section Closed

variable {s : Schema} {P : (α : Type) → Generator α → Prop} {resolve : FieldResolver}

theorem property_closed (hP : Closed P) (hres : ∀ f sels, P _ (resolve f sels)) (type : String)
    (fields : List FieldDefinition) (f : CollectedField) : P _ (s.property resolve type fields f) := by
  unfold property
  split
  · exact hP.throw _
  · exact hP.bind (hres _ _) fun _ => hP.pure _

theorem properties_closed (hP : Closed P) (hres : ∀ f sels, P _ (resolve f sels)) (type : String)
    (fields : List FieldDefinition) (selections : List Expanded) :
    P _ (s.properties resolve type fields selections) :=
  hP.bind (hP.liftExcept _) fun _ => hP.mapM (property_closed hP hres type fields) _

theorem objectShape_closed (hP : Closed P) (hres : ∀ f sels, P _ (resolve f sels)) (o : ObjectDefinition)
    (selections : List Expanded) (name? : Option String) : P _ (s.objectShape resolve o selections name?) := by
  unfold objectShape
  extract_lets rest
  have hrest : ∀ u, P _ (rest u) := fun _ => hP.bind (properties_closed hP hres _ _ _) fun _ => hP.register _ _
  split
  · exact hP.bind (hP.throw _) hrest
  · exact hrest ()

theorem variants_closed (hP : Closed P) (hres : ∀ f sels, P _ (resolve f sels)) (common : List Expanded) :
    ∀ (types : List String) (branches : Branches), P _ (s.variants resolve common branches types)
  | [], _ => by
    rw [variants]
    exact hP.pure _
  | t :: types, branches => by
    rw [variants]
    split
    · exact variants_closed hP hres common types _
    · refine hP.bind (hP.liftExcept _) fun t => ?_
      split
      · exact hP.bind (objectShape_closed hP hres _ _ _) fun _ =>
          hP.bind (variants_closed hP hres common types _) fun _ => hP.pure _
      · exact variants_closed hP hres common types _

theorem abstractShape_closed (hP : Closed P) (hres : ∀ f sels, P _ (resolve f sels)) (site : TypeDefinition)
    (selections : List Expanded) (name? : Option String) :
    P _ (s.abstractShape resolve site selections name?) := by
  unfold abstractShape
  extract_lets rest
  have hrest : ∀ u, P _ (rest u) := fun _ => by
    refine hP.bind (hP.liftExcept _) fun parts => hP.bind (properties_closed hP hres _ _ _) fun _ => ?_
    extract_lets keep
    have hkeep : ∀ vs, P _ (keep vs) := fun _ => hP.register _ _
    split
    · exact hP.bind (hP.pure _) hkeep
    · refine hP.bind (hP.liftExcept _) fun _ => ?_
      split
      · exact hP.bind (variants_closed hP hres _ _ _) hkeep
      · exact hP.bind (hP.throw _) hkeep
  split
  · exact hP.bind (hP.throw _) hrest
  · exact hrest ()

theorem fieldTypeOver_closed (hP : Closed P) (hres : ∀ f sels, P _ (resolve f sels)) (f : FieldDefinition)
    (selections : List Expanded) : P _ (s.fieldTypeOver resolve f selections) := by
  refine hP.bind (hP.liftExcept _) fun t => ?_
  extract_lets wrap
  have hwrap : ∀ base, P _ (wrap base) := fun _ => hP.pure _
  cases t with
  | scalar d => exact hP.bind (hP.pure _) hwrap
  | enumeration d => exact hP.bind (hP.map (hP.register _ _)) hwrap
  | object d => exact hP.bind (hP.map (objectShape_closed hP hres _ _ _)) hwrap
  | interface d => exact hP.bind (hP.map (abstractShape_closed hP hres _ _ _)) hwrap
  | union d => exact hP.bind (hP.map (abstractShape_closed hP hres _ _ _)) hwrap
  | input d => exact hP.bind (hP.throw _) hwrap

end Closed

/-- What holds of the resolver that resolves nothing, and with any resolver of the one over it,
holds of the resolver of every depth. -/
theorem fieldType_induct {s : Schema} {P : FieldResolver → Prop} (base : P unresolved)
    (level : ∀ resolve, P resolve → P (s.fieldTypeOver resolve)) : ∀ levels, P (s.fieldType levels)
  | 0 => level _ base
  | levels + 1 => level _ (fieldType_induct base level levels)

/-- What composition keeps holds of the generators of output shapes at every depth. -/
theorem fieldType_closed {s : Schema} {P : (α : Type) → Generator α → Prop} (hP : Closed P) (levels : Nat)
    (f : FieldDefinition) (selections : List Expanded) : P _ (s.fieldType levels f selections) :=
  fieldType_induct (P := fun resolve => ∀ f sels, P _ (resolve f sels)) (fun _ _ => hP.throw _)
    (fun _ hres => fieldTypeOver_closed hP hres) levels f selections

theorem fieldType_grows {s : Schema} (levels : Nat) (f : FieldDefinition) (selections : List Expanded) :
    Grows (s.fieldType levels f selections) :=
  fieldType_closed closed_grows levels f selections

/-! ## What a run has registered -/

/-- Runs of `resolve` keep `I` and establish `F`. -/
def Establishes (I : Progress → Prop) (F : Registry → FieldDefinition → List Expanded → PropertyType → Prop)
    (resolve : FieldResolver) : Prop :=
  ∀ ⦃f selections p t p'⦄, I p → Runs (resolve f selections) p t p' →
    I p' ∧ p.Grows p' ∧ F p'.registry f selections t

/-- The property `q` is the one of the collected field `f`, with a type of which `F` holds. -/
def IsProperty (s : Schema) (fields : List FieldDefinition)
    (F : FieldDefinition → List Expanded → PropertyType → Prop) (f : CollectedField) (q : Property) : Prop :=
  ∃ declaration t, s.declaration? fields f = some declaration ∧ F declaration f.selections t ∧
    q = ⟨f.key, f.name, if f.conditional then t.intoNullable else t, declaration.description?⟩

section parts

variable {s : Schema} {resolve : FieldResolver} {p p' : Progress}

/-- The selections on an object give the properties of its shape. -/
theorem objectShape_parts {o : ObjectDefinition} {selections : List Expanded} {name? : Option String} {n : String}
    (h : Runs (s.objectShape resolve o selections name?) p n p') :
    selections ≠ [] ∧ ∃ qs p₁, Runs (s.properties resolve o.name o.fields selections) p qs p₁ ∧
      Runs (register ⟨o.name, o.name, .object, o.description?, qs⟩ name?) p₁ n p' := by
  unfold objectShape at h
  extract_lets rest at h
  split at h
  next =>
    obtain ⟨_, _, hthrow, -⟩ := runs_bind.1 h
    exact absurd hthrow runs_throw
  next hne =>
    obtain ⟨qs, p₁, hqs, hreg⟩ := runs_bind.1 h
    exact ⟨by simpa using hne, qs, p₁, hqs, hreg⟩

/-- How the variants of a site are made, type by type: a type is passed over if it is no object or nothing is
selected on it. -/
inductive VariantRuns (s : Schema) (resolve : FieldResolver) (common : List Expanded) :
    Branches → List String → Progress → List Variant → Progress → Prop
  | nil {branches p} : VariantRuns s resolve common branches [] p [] p
  | passed {branches t types p vs p'} (hno : ∀ o, s.find? t = some (.object o) → common ++ branches.get t = [])
    (hrest : VariantRuns s resolve common (branches.remove t) types p vs p') :
    VariantRuns s resolve common branches (t :: types) p vs p'
  | made {branches t types o n p p₁ vs p'} (ho : s.find? t = some (.object o)) (hne : common ++ branches.get t ≠ [])
    (hr : Runs (s.objectShape resolve o (common ++ branches.get t) none) p n p₁)
    (hrest : VariantRuns s resolve common (branches.remove t) types p₁ vs p') :
    VariantRuns s resolve common branches (t :: types) p (⟨t, n⟩ :: vs) p'

theorem variantRuns_of_runs {common : List Expanded} : ∀ {types : List String} {branches : Branches}
    {p p' : Progress} {vs : List Variant}, Runs (s.variants resolve common branches types) p vs p' →
      s.VariantRuns resolve common branches types p vs p'
  | [], _, _, _, _, h => by
    rw [variants] at h
    obtain ⟨rfl, rfl⟩ := runs_pure.1 h
    exact .nil
  | t :: types, branches, _, _, _, h => by
    rw [variants] at h
    split at h
    next hempty => exact .passed (fun _ _ => List.isEmpty_iff.1 hempty) (variantRuns_of_runs h)
    next hne =>
      obtain ⟨d, _, hlift, hmatch⟩ := runs_bind.1 h
      obtain ⟨hd, rfl⟩ := runs_liftExcept.1 hlift
      have hfind : s.find? t = some d := resolve_eq_ok.1 hd
      split at hmatch
      next o =>
        obtain ⟨n, _, hn, hmore⟩ := runs_bind.1 hmatch
        obtain ⟨more, _, hvs, hpure⟩ := runs_bind.1 hmore
        obtain ⟨rfl, rfl⟩ := runs_pure.1 hpure
        exact .made hfind (by simpa using hne) hn (variantRuns_of_runs hvs)
      next hno =>
        exact .passed (fun o ho => absurd (Option.some.inj (hfind.symm.trans ho)) (hno o)) (variantRuns_of_runs hmatch)

theorem VariantRuns.grows {common : List Expanded} {types : List String} {branches : Branches} {vs : List Variant}
    (h : s.VariantRuns resolve common branches types p vs p') (hres : ∀ f sels, Grows (resolve f sels)) :
    p.Grows p' := by
  induction h with
  | nil => exact .refl _
  | passed _ _ ih => exact ih
  | made _ _ hr _ ih => exact ((objectShape_closed closed_grows hres _ _ _).runs hr).trans ih

/-- Each object of a site for which something is selected has had its shape made, without the branches of the types
before it. -/
theorem VariantRuns.objectShape {common : List Expanded} {types : List String} {branches : Branches} {vs : List Variant}
    (h : s.VariantRuns resolve common branches types p vs p') {before after : List String} {R : String}
    {o : ObjectDefinition} (htypes : types = before ++ R :: after) (ho : s.find? R = some (.object o))
    (hne : common ++ (before.foldl Branches.remove branches).get R ≠ []) :
    ∃ q n q', Runs (s.objectShape resolve o (common ++ (before.foldl Branches.remove branches).get R) none) q n q' := by
  induction h generalizing before with
  | nil => simp at htypes
  | passed hno _ ih =>
    rcases List.cons_eq_append_iff.1 htypes with ⟨rfl, he⟩ | ⟨before, rfl, he⟩
    · obtain ⟨rfl, -⟩ := List.cons.inj he
      exact absurd (hno o ho) hne
    · exact ih he hne
  | made hfind _ hr _ ih =>
    rcases List.cons_eq_append_iff.1 htypes with ⟨rfl, he⟩ | ⟨before, rfl, he⟩
    · obtain ⟨rfl, -⟩ := List.cons.inj he
      obtain rfl := TypeDefinition.object.inj (Option.some.inj (ho.symm.trans hfind))
      exact ⟨_, _, _, hr⟩
    · exact ih he hne

/-- An interface or a union is split; the common part gives the properties, and the branches, if there
are any, the variants. -/
theorem abstractShape_parts {site : TypeDefinition} {selections : List Expanded} {name? : Option String} {n : String}
    (h : Runs (s.abstractShape resolve site selections name?) p n p') :
    selections ≠ [] ∧ ∃ common branches qs vs p₁ p₂,
      Expanded.split s site.name selections = .ok (common, branches) ∧
      Runs (s.properties resolve site.name site.fields common) p qs p₁ ∧
      (branches = [] ∧ vs = [] ∧ p₁ = p₂ ∨ branches ≠ [] ∧ ∃ collected,
        Expanded.collect s site.name common = .ok collected ∧ returnsTypename collected = true ∧
        Runs (s.variants resolve common branches (s.possibleTypes site.name)) p₁ vs p₂) ∧
      Runs (register ⟨site.name, site.name, abstractKind site.kind vs, site.description?, qs⟩ name?) p₂ n p' := by
  unfold abstractShape at h
  extract_lets rest at h
  split at h
  next =>
    obtain ⟨_, _, hthrow, -⟩ := runs_bind.1 h
    exact absurd hthrow runs_throw
  next hne =>
    obtain ⟨⟨common, branches⟩, p₀, hlift, hprops⟩ := runs_bind.1 h
    obtain ⟨hsplit, rfl⟩ := runs_liftExcept.1 hlift
    obtain ⟨qs, p₁, hqs, hvariants⟩ := runs_bind.1 hprops
    extract_lets keep at hvariants
    refine ⟨by simpa using hne, common, branches, qs, ?_⟩
    split at hvariants
    next hempty =>
      obtain ⟨vs, p₂, hpure, hreg⟩ := runs_bind.1 hvariants
      obtain ⟨rfl, rfl⟩ := runs_pure.1 hpure
      exact ⟨[], p₁, p₁, hsplit, hqs, .inl ⟨List.isEmpty_iff.1 hempty, rfl, rfl⟩, hreg⟩
    next hbranches =>
      obtain ⟨collected, p₂, hlift, hvariants⟩ := runs_bind.1 hvariants
      obtain ⟨hc, rfl⟩ := runs_liftExcept.1 hlift
      split at hvariants
      next htypename =>
        obtain ⟨vs, p₃, hvs, hreg⟩ := runs_bind.1 hvariants
        exact ⟨vs, p₁, p₃, hsplit, hqs, .inr ⟨by simpa using hbranches, collected, hc, htypename, hvs⟩, hreg⟩
      next =>
        obtain ⟨_, _, hthrow, -⟩ := runs_bind.1 hvariants
        exact absurd hthrow runs_throw

end parts

section Establishes

variable {s : Schema} {I : Progress → Prop} {F : Registry → FieldDefinition → List Expanded → PropertyType → Prop}
  {resolve : FieldResolver} {p p' : Progress}

theorem IsProperty.imp {fields : List FieldDefinition} {F F' : FieldDefinition → List Expanded → PropertyType → Prop}
    {f : CollectedField} {q : Property} (h : s.IsProperty fields F f q)
    (himp : ∀ declaration selections t, F declaration selections t → F' declaration selections t) :
    s.IsProperty fields F' f q := by
  obtain ⟨declaration, t, hd, hF, rfl⟩ := h
  exact ⟨declaration, t, hd, himp _ _ _ hF, rfl⟩

theorem property_runs (hres : Establishes I F resolve) {type : String} {fields : List FieldDefinition}
    {f : CollectedField} {q : Property} (hI : I p) (h : Runs (s.property resolve type fields f) p q p') :
    I p' ∧ p.Grows p' ∧ s.IsProperty fields (F p'.registry) f q := by
  unfold property at h
  split at h
  next => exact absurd h runs_throw
  next declaration hd =>
    obtain ⟨t, p₁, ht, hq⟩ := runs_bind.1 h
    obtain ⟨rfl, rfl⟩ := runs_pure.1 hq
    obtain ⟨hI₁, hg, hF⟩ := hres hI ht
    exact ⟨hI₁, hg, declaration, t, hd, hF, rfl⟩

variable (mono : ∀ ⦃r r' f selections t⦄, r'.Extends r → F r f selections t → F r' f selections t)
include mono

theorem properties_runs (hres : Establishes I F resolve) {type : String} {fields : List FieldDefinition}
    {selections : List Expanded} {qs : List Property} (hI : I p)
    (h : Runs (s.properties resolve type fields selections) p qs p') :
    I p' ∧ p.Grows p' ∧ ∃ collected, Expanded.collect s type selections = .ok collected ∧
      List.Forall₂ (s.IsProperty fields (F p'.registry)) collected qs := by
  obtain ⟨collected, p₁, hlift, hm⟩ := runs_bind.1 h
  obtain ⟨hc, rfl⟩ := runs_liftExcept.1 hlift
  obtain ⟨hI', hg, hall⟩ := runs_mapM (I := I) (Q := fun r => s.IsProperty fields (F r))
    (fun hext hq => hq.imp fun _ _ _ => mono hext) (fun f _ _ _ _ hI hf => property_runs hres hI hf) hI hm
  exact ⟨hI', hg, collected, hc, hall⟩

/-- An object shape holds one property for each field collected on the object. -/
theorem objectShape_runs (hres : Establishes I F resolve) {o : ObjectDefinition} {selections : List Expanded}
    {name? : Option String} {n : String} (hI : I p) (h : Runs (s.objectShape resolve o selections name?) p n p') :
    selections ≠ [] ∧ ∃ collected qs p₁, Expanded.collect s o.name selections = .ok collected ∧
      I p₁ ∧ p.Grows p₁ ∧ List.Forall₂ (s.IsProperty o.fields (F p₁.registry)) collected qs ∧
      Runs (register ⟨o.name, o.name, .object, o.description?, qs⟩ name?) p₁ n p' := by
  obtain ⟨hne, qs, p₁, hqs, hreg⟩ := objectShape_parts h
  obtain ⟨hI₁, hg, collected, hc, hall⟩ := properties_runs mono hres hI hqs
  exact ⟨hne, collected, qs, p₁, hc, hI₁, hg, hall, hreg⟩

omit mono

/-- What the variants of a site hold: each is made of an object from the common part and a branch,
which is its own where no type is possible twice. Every object in `types` for which something is
selected has one. -/
structure VariantsHold (s : Schema) (Q : ObjectDefinition → List Expanded → String → Prop)
    (common : List Expanded) (branches : Branches) (types : List String) (vs : List Variant) : Prop where
  made : ∀ v ∈ vs, v.typename ∈ types ∧ ∃ o branch, s.find? v.typename = some (.object o) ∧
    (types.Nodup → branch = branches.get v.typename) ∧ Q o (common ++ branch) v.shapeName
  every : ∀ R ∈ types, ∀ o, s.find? R = some (.object o) → common ++ branches.get R ≠ [] →
    ∃ v ∈ vs, v.typename = R

/-- The variants of the types after `t` are among those of all types, `t` apart. -/
theorem VariantsHold.tail {Q : ObjectDefinition → List Expanded → String → Prop} {common : List Expanded}
    {branches : Branches} {t : String} {types : List String} {vs : List Variant}
    (h : s.VariantsHold Q common (branches.remove t) types vs) :
    (∀ v ∈ vs, v.typename ∈ t :: types ∧ ∃ o branch, s.find? v.typename = some (.object o) ∧
      ((t :: types).Nodup → branch = branches.get v.typename) ∧ Q o (common ++ branch) v.shapeName) ∧
    ∀ R ∈ types, R ≠ t → ∀ o, s.find? R = some (.object o) → common ++ branches.get R ≠ [] →
      ∃ v ∈ vs, v.typename = R := by
  constructor
  · intro v hv
    obtain ⟨hmem, o, branch, ho, hbranch, hq⟩ := h.made v hv
    refine ⟨List.mem_cons_of_mem _ hmem, o, branch, ho, fun hd => ?_, hq⟩
    have hne : v.typename ≠ t := fun he => (List.nodup_cons.1 hd).1 (he ▸ hmem)
    rw [hbranch (List.nodup_cons.1 hd).2, Branches.get_remove, if_neg hne]
  · intro R hR hne o ho hsel
    exact h.every R hR o ho (by rwa [Branches.get_remove, if_neg hne])

theorem variants_runs {Q : Registry → ObjectDefinition → List Expanded → String → Prop}
    (monoQ : ∀ ⦃r r' o selections n⦄, r'.Extends r → Q r o selections n → Q r' o selections n)
    (hobj : ∀ ⦃o selections n p p'⦄, s.find? o.name = some (.object o) → I p →
      Runs (s.objectShape resolve o selections none) p n p' →
      I p' ∧ p.Grows p' ∧ Q p'.registry o selections n) {common : List Expanded} {types : List String}
    {branches : Branches} {vs : List Variant} (hI : I p)
    (h : Runs (s.variants resolve common branches types) p vs p') :
    I p' ∧ p.Grows p' ∧ s.VariantsHold (Q p'.registry) common branches types vs := by
  replace h := variantRuns_of_runs h
  induction h with
  | nil => exact ⟨hI, .refl _, by simp, by simp⟩
  | @passed _ t _ _ _ _ hno _ ih =>
    obtain ⟨hI', hg, hhold⟩ := ih hI
    refine ⟨hI', hg, hhold.tail.1, fun R hR o ho hsel => ?_⟩
    have hne : R ≠ t := by
      rintro rfl
      exact hsel (hno o ho)
    exact hhold.tail.2 R ((List.mem_cons.1 hR).resolve_left hne) hne o ho hsel
  | @made _ t _ o _ _ _ _ _ hfind _ hr _ ih =>
    obtain ⟨hI₁, hg₁, hq⟩ := hobj (find?_self hfind) hI hr
    obtain ⟨hI₂, hg₂, hhold⟩ := ih hI₁
    refine ⟨hI₂, hg₁.trans hg₂, ?_, ?_⟩
    · refine List.forall_mem_cons.2 ⟨?_, hhold.tail.1⟩
      exact ⟨by simp, o, _, hfind, fun _ => rfl, monoQ hg₂.registry hq⟩
    · intro R hR o' ho hsel
      by_cases hne : R = t
      · exact ⟨_, List.mem_cons_self, hne.symm⟩
      · obtain ⟨v, hv, hvR⟩ := hhold.tail.2 R ((List.mem_cons.1 hR).resolve_left hne) hne o' ho hsel
        exact ⟨v, List.mem_cons_of_mem _ hv, hvR⟩

/-- The shape of a site holds one property for each field collected from the common part. If there
are branches, the common part returns `__typename`. -/
theorem abstractShape_runs {Q : Registry → ObjectDefinition → List Expanded → String → Prop}
    (mono : ∀ ⦃r r' f selections t⦄, r'.Extends r → F r f selections t → F r' f selections t)
    (monoQ : ∀ ⦃r r' o selections n⦄, r'.Extends r → Q r o selections n → Q r' o selections n)
    (hres : Establishes I F resolve)
    (hobj : ∀ ⦃o selections n p p'⦄, s.find? o.name = some (.object o) → I p →
      Runs (s.objectShape resolve o selections none) p n p' →
      I p' ∧ p.Grows p' ∧ Q p'.registry o selections n)
    {site : TypeDefinition} {selections : List Expanded} {name? : Option String} {n : String} (hI : I p)
    (h : Runs (s.abstractShape resolve site selections name?) p n p') :
    selections ≠ [] ∧ ∃ common branches collected qs vs p₁,
      Expanded.split s site.name selections = .ok (common, branches) ∧
      Expanded.collect s site.name common = .ok collected ∧ I p₁ ∧ p.Grows p₁ ∧
      List.Forall₂ (s.IsProperty site.fields (F p₁.registry)) collected qs ∧
      (branches = [] ∧ vs = [] ∨ returnsTypename collected = true ∧
        s.VariantsHold (Q p₁.registry) common branches (s.possibleTypes site.name) vs) ∧
      Runs (register ⟨site.name, site.name, abstractKind site.kind vs, site.description?, qs⟩ name?) p₁ n p' := by
  obtain ⟨hne, common, branches, qs, vs, p₁, p₂, hsplit, hqs, hvariants, hreg⟩ := abstractShape_parts h
  obtain ⟨hI₁, hg₁, collected, hc, hall⟩ := properties_runs mono hres hI hqs
  refine ⟨hne, common, branches, collected, qs, vs, p₂, hsplit, hc, ?_⟩
  rcases hvariants with ⟨hempty, hnone, rfl⟩ | ⟨-, collected', hc', htypename, hvs⟩
  · exact ⟨hI₁, hg₁, hall, .inl ⟨hempty, hnone⟩, hreg⟩
  · obtain rfl : collected = collected' := Except.ok.inj (hc.symm.trans hc')
    obtain ⟨hI₂, hg₂, hhold⟩ := variants_runs monoQ hobj hI₁ hvs
    exact ⟨hI₂, hg₁.trans hg₂, hall.imp fun _ _ hq => hq.imp fun _ _ _ => mono hg₂.registry,
      .inr ⟨htypename, hhold⟩, hreg⟩

end Establishes

theorem variants_of_abstractKind (kind : TypeKind) (vs : List Variant) {shape : Shape}
    (h : shape.kind = abstractKind kind vs) : shape.variants = vs := by
  unfold Shape.variants
  unfold abstractKind at h
  split at h <;> rw [h]

theorem base_ofLayers (base : BaseType) (nullable : Bool) (type : TypeRef) :
    (PropertyType.ofLayers base nullable type).base = base := by
  induction type generalizing nullable with
  | named => rfl
  | nonNull t ih => exact ih false
  | list t ih => exact ih true

@[simp] theorem base_ofTypeRef (type : TypeRef) (base : BaseType) :
    (PropertyType.ofTypeRef type base).base = base :=
  base_ofLayers base true type

@[simp] theorem base_intoNullable (t : PropertyType) : t.intoNullable.base = t.base := by
  cases t <;> rfl

/-- The four ways in which the base of a field is resolved, by the kind of the type named `type`. -/
inductive FieldRuns (s : Schema) (resolve : FieldResolver) (type : String) (selections : List Expanded)
    (p : Progress) : BaseType → Progress → Prop
  | scalar {d} (h : s.find? type = some (.scalar d)) :
    FieldRuns s resolve type selections p (.scalar d.name (s.hostType d.name)) p
  | enumeration {d n p'} (h : s.find? type = some (.enumeration d)) (hr : Runs (enumShape d) p n p') :
    FieldRuns s resolve type selections p (.generated n) p'
  | object {o n p'} (h : s.find? type = some (.object o))
    (hr : Runs (s.objectShape resolve o selections none) p n p') :
    FieldRuns s resolve type selections p (.generated n) p'
  | abstract {site n p'} (h : s.find? type = some site) (hk : site.kind = .interface ∨ site.kind = .union)
    (hr : Runs (s.abstractShape resolve site selections none) p n p') :
    FieldRuns s resolve type selections p (.generated n) p'

theorem fieldTypeOver_runs {s : Schema} {resolve : FieldResolver} {f : FieldDefinition}
    {selections : List Expanded} {t : PropertyType} {p p' : Progress}
    (h : Runs (s.fieldTypeOver resolve f selections) p t p') :
    ∃ base, s.FieldRuns resolve f.type.baseName selections p base p' ∧ t = .ofTypeRef f.type base := by
  obtain ⟨d, p₀, hlift, h⟩ := runs_bind.1 h
  obtain ⟨hd, rfl⟩ := runs_liftExcept.1 hlift
  have hfind : s.find? f.type.baseName = some d := resolve_eq_ok.1 hd
  extract_lets wrap at h
  have hwrap : ∀ base p₁, Runs (wrap base) p₁ t p' → t = .ofTypeRef f.type base ∧ p₁ = p' := fun base p₁ hw => by
    obtain ⟨rfl, rfl⟩ := runs_pure.1 hw
    exact ⟨rfl, rfl⟩
  cases d with
  | scalar d =>
    obtain ⟨base, p₁, hb, hw⟩ := runs_bind.1 h
    obtain ⟨rfl, rfl⟩ := runs_pure.1 hb
    obtain ⟨rfl, rfl⟩ := hwrap _ _ hw
    exact ⟨_, .scalar hfind, rfl⟩
  | enumeration d =>
    obtain ⟨base, p₁, hb, hw⟩ := runs_bind.1 h
    obtain ⟨n, hn, rfl⟩ := runs_map.1 hb
    obtain ⟨rfl, rfl⟩ := hwrap _ _ hw
    exact ⟨_, .enumeration hfind hn, rfl⟩
  | object o =>
    obtain ⟨base, p₁, hb, hw⟩ := runs_bind.1 h
    obtain ⟨n, hn, rfl⟩ := runs_map.1 hb
    obtain ⟨rfl, rfl⟩ := hwrap _ _ hw
    exact ⟨_, .object hfind hn, rfl⟩
  | interface d =>
    obtain ⟨base, p₁, hb, hw⟩ := runs_bind.1 h
    obtain ⟨n, hn, rfl⟩ := runs_map.1 hb
    obtain ⟨rfl, rfl⟩ := hwrap _ _ hw
    exact ⟨_, .abstract hfind (.inl rfl) hn, rfl⟩
  | union d =>
    obtain ⟨base, p₁, hb, hw⟩ := runs_bind.1 h
    obtain ⟨n, hn, rfl⟩ := runs_map.1 hb
    obtain ⟨rfl, rfl⟩ := hwrap _ _ hw
    exact ⟨_, .abstract hfind (.inr rfl) hn, rfl⟩
  | input d =>
    obtain ⟨base, p₁, hb, -⟩ := runs_bind.1 h
    exact absurd hb runs_throw

end Schema

end TypedQuery
