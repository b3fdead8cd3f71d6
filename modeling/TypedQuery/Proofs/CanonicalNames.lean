/-
Names are canonical for shapes. A call site is a place where the shape of a
composite type is made; `Makes` are the sites that making one shape makes in
turn, each from the progress that the ones before it leave, and `Reached` are
those of a whole run. What a site leaves comes before what the run leaves
(`Encloses`), so two sites that receive names have a registry in common that
holds both. There each name is built (`Built`), and a tree is built under one
name only (`names_canonical`).
-/
import TypedQuery.Proofs.Termination
import TypedQuery.Proofs.Naming
import TypedQuery.Proofs.Unfolding

namespace TypedQuery

open Generator

/-! ## Runs inside runs -/

namespace Generator

variable {α β γ : Type} {p q : Progress}

/-- Whatever `y` leaves when it starts from `q`, `x` leaves more when it starts from `p`. -/
def Encloses (x : Generator α) (p : Progress) (y : Generator β) (q : Progress) : Prop :=
  (outcome y q).2.Grows (outcome x p).2

theorem Encloses.trans {x : Generator α} {y : Generator β} {z : Generator γ} {r : Progress}
    (h : Encloses x p y q) (h' : Encloses y q z r) : Encloses x p z r := Progress.Grows.trans h' h

theorem encloses_first (x : Generator α) {f : α → Generator β} (hf : ∀ a, Grows (f a)) : Encloses (x >>= f) p x p := by
  unfold Encloses
  rw [outcome_bind]
  split
  next a p₁ h => exact h ▸ hf a p₁
  next h => exact h ▸ .refl _

theorem encloses_next {x : Generator α} {f : α → Generator β} {a : α} (h : Runs x p a q) :
    Encloses (x >>= f) p (f a) q := by
  unfold Encloses
  rw [outcome_bind, h]
  exact .refl _

theorem encloses_map (x : Generator α) (f : α → β) : Encloses (f <$> x) p x p := by
  rw [map_eq_pure_bind]
  exact encloses_first x fun _ => grows_pure

theorem encloses_mapM {f : α → Generator β} (hf : ∀ a, Grows (f a)) {before after : List α} {a : α} {bs : List β}
    (h : Runs (before.mapM f) p bs q) : Encloses ((before ++ a :: after).mapM f) p (f a) q := by
  induction before generalizing p bs with
  | nil =>
    obtain ⟨-, rfl⟩ := runs_pure.1 (List.mapM_nil (f := f) ▸ h)
    rw [List.nil_append, List.mapM_cons]
    exact encloses_first _ fun _ => (grows_mapM hf after).bind fun _ => grows_pure
  | cons b before ih =>
    rw [List.mapM_cons] at h
    obtain ⟨b', p₁, hb, h⟩ := runs_bind.1 h
    obtain ⟨bs, p₂, hbs, hpure⟩ := runs_bind.1 h
    obtain ⟨-, rfl⟩ := runs_pure.1 hpure
    rw [List.cons_append, List.mapM_cons]
    exact (encloses_next hb).trans ((encloses_first _ fun _ => grows_pure).trans (ih hbs))

end Generator

/-- Where every element is related to something, the list is. -/
theorem exists_forall₂ {α β : Type} {R : α → β → Prop} : ∀ {as : List α}, (∀ a ∈ as, ∃ b, R a b) →
    ∃ bs, List.Forall₂ R as bs
  | [], _ => ⟨[], .nil⟩
  | a :: as, h => by
    obtain ⟨b, hb⟩ := h a List.mem_cons_self
    obtain ⟨bs, hbs⟩ := exists_forall₂ fun a ha => h a (List.mem_cons_of_mem _ ha)
    exact ⟨b :: bs, .cons hb hbs⟩

/-! ## Call sites -/

/-- A place where the shape of a composite type is made from selections on it, to be kept under
`name?`, or else under the first name that admits it. -/
structure CallSite where
  type : TypeDefinition
  selections : List Expanded
  name? : Option String

namespace Schema

/-- Resolves the type of any field, as deep as its selections go. -/
def fieldResolver (s : Schema) : FieldResolver := fun f selections => s.resolverFor selections f selections

theorem fieldResolver_eq (s : Schema) : s.fieldResolver = s.fieldTypeOver s.fieldResolver := by
  funext f selections
  rw [fieldResolver, resolverFor, fieldType_eq_upTo]
  refine fieldTypeOver_congr fun g sub hbelow => ?_
  have hlt := hbelow.levels_lt
  rw [fieldResolver, resolverFor, fieldType_eq_upTo]
  exact fieldTypeUpTo_eq (by omega) (by omega)

/-- The resolver for the fields among selections, whatever their depth. -/
theorem objectShape_fieldResolver {s : Schema} {o : ObjectDefinition} {selections : List Expanded}
    {name? : Option String} :
    s.objectShape (s.resolverFor selections) o selections name? =
      s.objectShape s.fieldResolver o selections name? := by
  refine objectShape_congr fun g sub hs => ?_
  have hlt := hs.levels_lt
  rw [resolverFor, fieldType_eq_upTo, fieldResolver, resolverFor, fieldType_eq_upTo]
  exact fieldTypeUpTo_eq (by omega) (by omega)

end Schema

namespace CallSite

/-- Makes the shape of the site, and returns its name. -/
def make (s : Schema) (c : CallSite) : Generator String :=
  match c.type with
  | .object o => s.objectShape s.fieldResolver o c.selections c.name?
  | site => s.abstractShape s.fieldResolver site c.selections c.name?

/-- The selections that give the properties of the shape: for an interface or a union, the common part. -/
inductive Own (s : Schema) (c : CallSite) : List Expanded → Prop
  | object {o} (hc : c.type = .object o) : Own s c c.selections
  | common {common branches} (hc : ∀ o, c.type ≠ .object o)
    (hsplit : Expanded.split s c.type.name c.selections = .ok (common, branches)) : Own s c common

theorem make_object {s : Schema} {c : CallSite} {o : ObjectDefinition} (hc : c.type = .object o) :
    c.make s = s.objectShape s.fieldResolver o c.selections c.name? := by
  simp only [make, hc]

theorem make_abstract {s : Schema} {c : CallSite} (hc : ∀ o, c.type ≠ .object o) :
    c.make s = s.abstractShape s.fieldResolver c.type c.selections c.name? := by
  unfold make
  split
  next o ho => exact absurd ho (hc o)
  next => rfl

end CallSite

namespace Schema

/-- To make the shape of one site, the shape of another is made: of a field selected there, once the
fields before it are resolved; or of a variant, once the variants before it are made. -/
inductive Makes (s : Schema) : CallSite × Progress → CallSite × Progress → Prop
  | field {c p own before f after qs q g t} (hne : c.selections ≠ []) (hown : c.Own s own)
    (hcollect : Expanded.collect s c.type.name own = .ok (before ++ f :: after))
    (hbefore : Runs (before.mapM (s.property s.fieldResolver c.type.name c.type.fields)) p qs q)
    (hg : s.declaration? c.type.fields f = some g) (ht : s.find? g.type.baseName = some t)
    (hcomposite : t.isComposite = true) : Makes s (c, p) (⟨t, f.selections, none⟩, q)
  | variant {c p common branches qs p₁ collected before R after vs q o} (hne : c.selections ≠ [])
    (hc : ∀ o, c.type ≠ .object o) (hsplit : Expanded.split s c.type.name c.selections = .ok (common, branches))
    (hbranches : branches ≠ [])
    (hproperties : Runs (s.properties s.fieldResolver c.type.name c.type.fields common) p qs p₁)
    (hcollect : Expanded.collect s c.type.name common = .ok collected) (htypename : returnsTypename collected = true)
    (htypes : s.possibleTypes c.type.name = before ++ R :: after)
    (hbefore : Runs (s.variants s.fieldResolver common branches before) p₁ vs q)
    (ho : s.find? R = some (.object o))
    (hselects : common ++ (before.foldl Branches.remove branches).get R ≠ []) :
    Makes s (c, p) (⟨.object o, common ++ (before.foldl Branches.remove branches).get R, none⟩, q)

/-- The sites of a run over the operations of a document, each with the progress from which its shape
is made: those of the data, and those which they make. -/
inductive Reached (s : Schema) (d : Document) : CallSite × Progress → Prop
  | data {before op after shapes p root} (hops : d.operations = before ++ op :: after)
    (hbefore : Runs (before.mapM (s.generateOperation d)) .start shapes p)
    (hcycles : d.checkCycles op.selections = .ok ()) (hroot : s.find? (s.rootType op.kind) = some (.object root)) :
    Reached s d (⟨.object root, d.expand op.selections, some (s.dataName op)⟩, p)
  | made {a b} (h : Reached s d a) (hm : s.Makes a b) : Reached s d b

/-- In the run over the document, a site without a name of its own receives the name `n`, and leaves
the registry `r`. -/
def Receives (s : Schema) (d : Document) (n : String) (r : Registry) : Prop :=
  ∃ c p p', s.Reached d (c, p) ∧ c.name? = none ∧ Runs (c.make s) p n p' ∧ p'.registry = r

/-! ## The order of sites -/

section Order

variable {s : Schema} {d : Document}

theorem fieldResolver_grows (f : FieldDefinition) (selections : List Expanded) :
    Grows (s.fieldResolver f selections) := fieldType_grows _ _ _

/-- A field of a composite type is resolved by making the shape of its site. -/
theorem encloses_fieldResolver {g : FieldDefinition} {t : TypeDefinition} {selections : List Expanded} {p : Progress}
    (ht : s.find? g.type.baseName = some t) (hcomposite : t.isComposite = true) :
    Encloses (s.fieldResolver g selections) p (CallSite.make s ⟨t, selections, none⟩) p := by
  rw [fieldResolver_eq]
  refine (encloses_next (runs_liftExcept.2 ⟨resolve_eq_ok.2 ht, rfl⟩)).trans ?_
  cases t with
  | object | interface | union => exact (encloses_first _ fun _ => grows_pure).trans (encloses_map _ _)
  | scalar | enumeration | input => cases hcomposite

theorem encloses_property {type : String} {fields : List FieldDefinition} {f : CollectedField} {g : FieldDefinition}
    {p : Progress} (hg : s.declaration? fields f = some g) :
    Encloses (s.property s.fieldResolver type fields f) p (s.fieldResolver g f.selections) p := by
  simp only [property, hg]
  exact encloses_first _ fun _ => grows_pure

theorem encloses_variants {common : List Expanded} {R : String} (after : List String) {o : ObjectDefinition}
    (ho : s.find? R = some (.object o)) {q : Progress} :
    ∀ {before : List String} {branches : Branches} {vs : List Variant} {p : Progress},
      Runs (s.variants s.fieldResolver common branches before) p vs q →
      common ++ (before.foldl Branches.remove branches).get R ≠ [] →
      Encloses (s.variants s.fieldResolver common branches (before ++ R :: after)) p
        (s.objectShape s.fieldResolver o (common ++ (before.foldl Branches.remove branches).get R) none) q
  | [], branches, vs, p, h, hselects => by
    rw [variants] at h
    obtain ⟨-, rfl⟩ := runs_pure.1 h
    rw [List.nil_append, variants, if_neg (by simpa using hselects)]
    refine (encloses_next (runs_liftExcept.2 ⟨resolve_eq_ok.2 ho, rfl⟩)).trans (encloses_first _ fun _ => ?_)
    exact (variants_closed closed_grows fieldResolver_grows common _ _).bind fun _ => grows_pure
  | t :: before, branches, vs, p, h, hselects => by
    rw [variants] at h
    rw [List.cons_append, variants]
    split at h
    next hempty =>
      rw [if_pos hempty]
      exact encloses_variants after ho h hselects
    next hempty =>
      rw [if_neg hempty]
      obtain ⟨definition, p₀, hlift, h⟩ := runs_bind.1 h
      refine (encloses_next hlift).trans ?_
      split at h
      next =>
        obtain ⟨n, p₁, hn, h⟩ := runs_bind.1 h
        obtain ⟨more, p₂, hmore, hpure⟩ := runs_bind.1 h
        obtain ⟨-, rfl⟩ := runs_pure.1 hpure
        exact (encloses_next hn).trans
          ((encloses_first _ fun _ => grows_pure).trans (encloses_variants after ho hmore hselects))
      next => exact encloses_variants after ho h hselects

theorem encloses_properties {type : String} {fields : List FieldDefinition} {own : List Expanded}
    {before after : List CollectedField} {f : CollectedField} {g : FieldDefinition} {t : TypeDefinition}
    {qs : List Property} {p q : Progress} (hcollect : Expanded.collect s type own = .ok (before ++ f :: after))
    (hbefore : Runs (before.mapM (s.property s.fieldResolver type fields)) p qs q)
    (hg : s.declaration? fields f = some g) (ht : s.find? g.type.baseName = some t)
    (hcomposite : t.isComposite = true) :
    Encloses (s.properties s.fieldResolver type fields own) p (CallSite.make s ⟨t, f.selections, none⟩) q :=
  (encloses_next (runs_liftExcept.2 ⟨hcollect, rfl⟩)).trans
    ((encloses_mapM (property_closed closed_grows fieldResolver_grows type fields) hbefore).trans
      ((encloses_property hg).trans (encloses_fieldResolver ht hcomposite)))

theorem encloses_objectShape {o : ObjectDefinition} {selections : List Expanded} {name? : Option String}
    {p : Progress} (hne : selections ≠ []) :
    Encloses (s.objectShape s.fieldResolver o selections name?) p
      (s.properties s.fieldResolver o.name o.fields selections) p := by
  unfold objectShape
  rw [if_neg (by simpa using hne)]
  exact encloses_first _ fun _ => register_grows _ _

theorem encloses_abstractShape {site : TypeDefinition} {selections common : List Expanded} {branches : Branches}
    {name? : Option String} {p : Progress} (hne : selections ≠ [])
    (hsplit : Expanded.split s site.name selections = .ok (common, branches)) :
    Encloses (s.abstractShape s.fieldResolver site selections name?) p
        (s.properties s.fieldResolver site.name site.fields common) p ∧
      ∀ {qs collected q}, branches ≠ [] → Runs (s.properties s.fieldResolver site.name site.fields common) p qs q →
        Expanded.collect s site.name common = .ok collected → returnsTypename collected = true →
        Encloses (s.abstractShape s.fieldResolver site selections name?) p
          (s.variants s.fieldResolver common branches (s.possibleTypes site.name)) q := by
  unfold abstractShape
  rw [if_neg (by simpa using hne)]
  have hparts : Runs (register.liftExcept (Expanded.split s site.name selections)) p (common, branches) p :=
    runs_liftExcept.2 ⟨hsplit, rfl⟩
  have hregister : ∀ (qs : List Property) (vs : List Variant), Grows (register
      ⟨site.name, site.name, abstractKind site.kind vs, site.description?, qs⟩ name?) :=
    fun _ _ => register_grows _ _
  refine ⟨(encloses_next hparts).trans (encloses_first _ fun qs => ?_), fun hbranches hproperties hcollect htypename => ?_⟩
  · dsimp only
    split
    · exact grows_pure.bind (hregister qs)
    · refine grows_liftExcept.bind fun collected => ?_
      split
      · exact (variants_closed closed_grows fieldResolver_grows _ _ _).bind (hregister qs)
      · exact grows_throw.bind (hregister qs)
  · refine (encloses_next hparts).trans ((encloses_next hproperties).trans ?_)
    dsimp only
    rw [if_neg (by simpa using hbranches)]
    refine (encloses_next (runs_liftExcept.2 ⟨hcollect, rfl⟩)).trans ?_
    rw [if_pos htypename]
    exact encloses_first _ (hregister _)

/-- What a site makes, it makes in the course of making its own shape. -/
theorem Makes.encloses {a b : CallSite × Progress} (h : s.Makes a b) :
    Encloses (a.1.make s) a.2 (b.1.make s) b.2 := by
  cases h with
  | @field c p own before f after qs q g t hne hown hcollect hbefore hg ht hcomposite =>
    refine Encloses.trans ?_ (encloses_properties hcollect hbefore hg ht hcomposite)
    cases hown with
    | @object o hc =>
      rw [CallSite.make_object hc, hc]
      exact encloses_objectShape hne
    | common hc hsplit =>
      rw [CallSite.make_abstract hc]
      exact (encloses_abstractShape hne hsplit).1
  | @variant c p common branches qs p₁ collected before R after vs q o hne hc hsplit hbranches hproperties hcollect
      htypename htypes hbefore ho hselects =>
    refine Encloses.trans ?_ (encloses_variants after ho hbefore hselects)
    rw [← htypes, CallSite.make_abstract hc]
    exact (encloses_abstractShape hne hsplit).2 hbranches hproperties hcollect htypename

/-- A site is made in the course of an operation, after the ones before it have succeeded. -/
theorem Reached.encloses {a : CallSite × Progress} (h : s.Reached d a) :
    ∃ before op after shapes p, d.operations = before ++ op :: after ∧
      Runs (before.mapM (s.generateOperation d)) .start shapes p ∧
      Encloses (s.operationShapes d op) p (a.1.make s) a.2 := by
  induction h with
  | @data before op after shapes p root hops hbefore hcycles hroot =>
    refine ⟨before, op, after, shapes, p, hops, hbefore, ?_⟩
    refine (encloses_next (runs_liftExcept.2 ⟨hcycles, rfl⟩)).trans ?_
    refine (encloses_next (runs_liftExcept.2 ⟨resolve_eq_ok.2 hroot, rfl⟩)).trans ?_
    dsimp only
    rw [objectShape_fieldResolver]
    exact encloses_first _ fun _ => (variableProperties_grows _).bind fun _ => grows_pure
  | made _ hm ih =>
    obtain ⟨before, op, after, shapes, p, hops, hbefore, hencloses⟩ := ih
    exact ⟨before, op, after, shapes, p, hops, hbefore, hencloses.trans hm.encloses⟩

theorem generateOperation_grows (op : Operation) : Grows (s.generateOperation d op) := fun p => by
  rw [outcome_generateOperation]
  split
  next shape p' h => exact (operationShapes_grows d op).runs h
  next => exact .refl p

/-- Of two operations of a run, what the later one leaves comes after what the earlier one leaves. -/
theorem operationShapes_in_order {before before' : List Operation} {op op' : Operation}
    {shapes shapes' : List OperationShape} {p p' : Progress}
    (hbefore : Runs (before.mapM (s.generateOperation d)) .start shapes p)
    (hbefore' : Runs (before'.mapM (s.generateOperation d)) .start shapes' p')
    (hle : before ++ [op] <+: before' ++ [op']) :
    (outcome (s.operationShapes d op) p).2.Grows (outcome (s.operationShapes d op') p').2 := by
  rcases List.prefix_concat_iff.1 hle with heq | ⟨between, rfl⟩
  · obtain ⟨rfl, hop⟩ := List.append_inj' heq rfl
    obtain rfl := List.singleton_inj.1 hop
    obtain rfl : p = p' := congrArg Prod.snd (hbefore.symm.trans hbefore')
    exact .refl _
  · simp only [List.append_assoc, List.singleton_append, List.mapM_append, List.mapM_cons, runs_bind, runs_pure]
      at hbefore'
    obtain ⟨_, _, hstart, _, _, ⟨shape, q, hop, _, _, hbetween, -, rfl⟩, -, rfl⟩ := hbefore'
    obtain rfl : p = _ := congrArg Prod.snd (hbefore.symm.trans hstart)
    rw [show outcome (s.operationShapes d op) p = (.ok shape, q) from generateOperation_runs.1 hop]
    exact ((grows_mapM generateOperation_grows between).runs hbetween).trans (operationShapes_grows d op' _)

/-- Two sites leave registries with one in common that holds the shapes of both. -/
theorem exists_extends {n₁ n₂ : String} {r₁ r₂ : Registry} (h₁ : s.Receives d n₁ r₁) (h₂ : s.Receives d n₂ r₂) :
    ∃ r : Registry, r.Extends r₁ ∧ r.Extends r₂ := by
  obtain ⟨c₁, p₁, q₁, hreached₁, -, hr₁, rfl⟩ := h₁
  obtain ⟨c₂, p₂, q₂, hreached₂, -, hr₂, rfl⟩ := h₂
  obtain ⟨before₁, op₁, after₁, shapes₁, start₁, hops₁, hbefore₁, hencloses₁⟩ := hreached₁.encloses
  obtain ⟨before₂, op₂, after₂, shapes₂, start₂, hops₂, hbefore₂, hencloses₂⟩ := hreached₂.encloses
  rw [Encloses, show outcome (c₁.make s) p₁ = _ from hr₁] at hencloses₁
  rw [Encloses, show outcome (c₂.make s) p₂ = _ from hr₂] at hencloses₂
  have hprefix₁ : before₁ ++ [op₁] <+: d.operations := ⟨after₁, by rw [hops₁]; simp⟩
  have hprefix₂ : before₂ ++ [op₂] <+: d.operations := ⟨after₂, by rw [hops₂]; simp⟩
  rcases List.prefix_or_prefix_of_prefix hprefix₁ hprefix₂ with hle | hle
  · exact ⟨_, (hencloses₁.trans (operationShapes_in_order hbefore₁ hbefore₂ hle)).registry, hencloses₂.registry⟩
  · exact ⟨_, hencloses₁.registry, (hencloses₂.trans (operationShapes_in_order hbefore₂ hbefore₁ hle)).registry⟩

end Order

/-! ## What a site leaves -/

section Built

variable {s : Schema} {d : Document} {resolve : FieldResolver} {p p' : Progress} {n : String}

/-- The names of a registry that are built. -/
def BuildsAll (r : Registry) (names : List String) : Prop := ∀ n ∈ names, ∃ u, r.Built n u

theorem BuildsAll.extends {r r' : Registry} {names : List String} (h : BuildsAll r names) (hext : r'.Extends r) :
    BuildsAll r' names := fun n hn => (h n hn).imp fun _ hu => hu.extends hext

/-- A shape made of built names is built under the name that is found for it. -/
theorem register_built {shape : Shape} (hname : shape.name = shape.schemaType)
    (hkind : ∀ values, shape.kind ≠ .enumeration values) (hparts : BuildsAll p.registry shape.references)
    (h : Runs (register shape none) p n p') : p.Grows p' ∧ ∃ u, p'.registry.Built n u := by
  have hg := (register_grows shape none).runs h
  obtain ⟨parts, hparts⟩ := exists_forall₂ (hparts.extends hg.registry)
  obtain ⟨hk, -⟩ := register_runs h
  have hheld : p'.registry.lookup? n = some { shape with name := n } := hk.held
  have hn : p.registry.nameFor shape = n := by
    simp only [register, runs_bind, runs_get, runs_set, runs_pure] at h
    obtain ⟨_, _, ⟨rfl, rfl⟩, _, _, -, hn, -⟩ := h
    exact hn
  have hagain : p'.registry.nameFor shape = n :=
    (Registry.nameFor_of_extends hg.registry (hn.symm ▸ hheld)).trans hn
  refine ⟨hg, _, .node hheld ?_ hparts⟩
  unfold Registry.Found
  split
  next values hvalues => exact absurd hvalues (hkind values)
  next =>
    obtain ⟨name, schemaType, kind, description?, properties⟩ := shape
    obtain rfl : name = schemaType := hname
    exact hagain

theorem enumShape_built {d : EnumDefinition} (h : Runs (enumShape d) p n p') :
    p.Grows p' ∧ ∃ u, p'.registry.Built n u := by
  have hg := (register_grows _ _).runs h
  obtain ⟨hk, hname⟩ := register_runs h
  obtain rfl : d.name = n := Option.some.inj (hname.resolve_right (by simp))
  exact ⟨hg, _, .node hk.held rfl .nil⟩

/-- Runs of the resolver leave types with built names. -/
abbrev Builds (resolve : FieldResolver) : Prop :=
  Establishes (fun _ => True) (fun r _ _ t => BuildsAll r t.base.references) resolve

theorem buildsAll_properties {r : Registry} {fields : List FieldDefinition} {collected : List CollectedField}
    {qs : List Property}
    (h : List.Forall₂ (s.IsProperty fields fun _ _ t => BuildsAll r t.base.references) collected qs) :
    BuildsAll r (qs.flatMap (·.type.base.references)) := by
  intro n hn
  obtain ⟨q, hq, hn⟩ := List.mem_flatMap.1 hn
  obtain ⟨f, -, declaration, t, -, ht, rfl⟩ := exists_of_forall₂_right h hq
  refine ht n ?_
  split at hn
  · rwa [base_intoNullable] at hn
  · exact hn

theorem objectShape_built (hres : Builds resolve) {o : ObjectDefinition} {selections : List Expanded}
    (h : Runs (s.objectShape resolve o selections none) p n p') : p.Grows p' ∧ ∃ u, p'.registry.Built n u := by
  obtain ⟨-, collected, qs, p₁, -, -, hg, hall, hreg⟩ :=
    objectShape_runs (fun _ _ _ _ _ hext h => h.extends hext) hres trivial h
  have hreferences : BuildsAll p₁.registry
      (Shape.references ⟨o.name, o.name, .object, o.description?, qs⟩) := by
    simpa [Shape.references, Shape.variants] using buildsAll_properties hall
  obtain ⟨hg', hu⟩ := register_built rfl (by simp) hreferences hreg
  exact ⟨hg.trans hg', hu⟩

theorem abstractShape_built (hres : Builds resolve) {site : TypeDefinition} {selections : List Expanded}
    (h : Runs (s.abstractShape resolve site selections none) p n p') : p.Grows p' ∧ ∃ u, p'.registry.Built n u := by
  obtain ⟨-, common, branches, collected, qs, vs, p₁, -, -, -, hg, hall, hvariants, hreg⟩ :=
    abstractShape_runs (Q := fun r _ _ n => ∃ u, r.Built n u) (fun _ _ _ _ _ hext h => h.extends hext)
      (fun _ _ _ _ _ hext h => h.imp fun _ hu => hu.extends hext) hres
      (fun _ _ _ _ _ _ _ h => ⟨trivial, objectShape_built hres h⟩) trivial h
  have hvs : BuildsAll p₁.registry (vs.map (·.shapeName)) := by
    rcases hvariants with ⟨-, rfl⟩ | ⟨-, hhold⟩
    · simp [BuildsAll]
    · intro n hn
      obtain ⟨v, hv, rfl⟩ := List.mem_map.1 hn
      obtain ⟨-, _, _, -, -, hu⟩ := hhold.made v hv
      exact hu
  have hreferences : BuildsAll p₁.registry
      (Shape.references ⟨site.name, site.name, abstractKind site.kind vs, site.description?, qs⟩) := by
    unfold Shape.references
    rw [variants_of_abstractKind site.kind vs rfl]
    exact List.forall_mem_append.2 ⟨buildsAll_properties hall, hvs⟩
  have hkind : ∀ values, abstractKind site.kind vs ≠ .enumeration values := by
    intro values
    unfold abstractKind
    split <;> simp
  obtain ⟨hg', hu⟩ := register_built rfl hkind hreferences hreg
  exact ⟨hg.trans hg', hu⟩

theorem fieldType_builds (s : Schema) (levels : Nat) : Builds (s.fieldType levels) := by
  refine fieldType_induct (P := Builds) (fun _ _ _ _ _ _ h => absurd h runs_throw) (fun resolve hres => ?_) levels
  intro f selections p t p' _ h
  obtain ⟨base, hbase, rfl⟩ := fieldTypeOver_runs h
  have hbuilt : p.Grows p' ∧ BuildsAll p'.registry base.references := by
    have one : ∀ {n}, p.Grows p' ∧ (∃ u, p'.registry.Built n u) →
        p.Grows p' ∧ BuildsAll p'.registry (BaseType.generated n).references := by
      rintro n ⟨hg, hu⟩
      exact ⟨hg, by simpa [BuildsAll, BaseType.references] using hu⟩
    cases hbase with
    | scalar => exact ⟨.refl _, by simp [BuildsAll, BaseType.references]⟩
    | enumeration _ hr => exact one (enumShape_built hr)
    | object _ hr => exact one (objectShape_built hres hr)
    | abstract _ _ hr => exact one (abstractShape_built hres hr)
  refine ⟨trivial, hbuilt.1, ?_⟩
  dsimp only
  rw [base_ofTypeRef]
  exact hbuilt.2

/-- What a site without a name of its own receives is built. -/
theorem make_built {c : CallSite} (hname : c.name? = none) (h : Runs (c.make s) p n p') :
    ∃ u, p'.registry.Built n u := by
  have hres : Builds s.fieldResolver := fun _ selections _ _ _ hI hr => s.fieldType_builds _ hI hr
  unfold CallSite.make at h
  rw [hname] at h
  split at h
  · exact (objectShape_built hres h).2
  · exact (abstractShape_built hres h).2

/-- **Names are canonical for shapes.** Two sites of one run that receive names receive the same one
if and only if the names stand for the same tree. -/
theorem names_canonical {n₁ n₂ : String} {r₁ r₂ : Registry} (h₁ : s.Receives d n₁ r₁) (h₂ : s.Receives d n₂ r₂) :
    ∃ u₁ u₂, r₁.Unfolds n₁ u₁ ∧ r₂.Unfolds n₂ u₂ ∧ (n₁ = n₂ ↔ u₁ = u₂) := by
  obtain ⟨r, hext₁, hext₂⟩ := exists_extends h₁ h₂
  obtain ⟨c₁, p₁, q₁, -, hname₁, hr₁, rfl⟩ := h₁
  obtain ⟨c₂, p₂, q₂, -, hname₂, hr₂, rfl⟩ := h₂
  obtain ⟨u₁, hu₁⟩ := make_built hname₁ hr₁
  obtain ⟨u₂, hu₂⟩ := make_built hname₂ hr₂
  refine ⟨u₁, u₂, hu₁.unfolds, hu₂.unfolds, ?_, ?_⟩
  · rintro rfl
    exact (hu₁.extends hext₁).unfolds.unique (hu₂.extends hext₂).unfolds
  · rintro rfl
    exact (hu₁.extends hext₁).name_eq (hu₂.extends hext₂)

end Built

/-! Of three users selected one after the other, the first and the last have the same shape. -/

/-- The users of a query, by key and by the field selected of each. -/
def usersQuery (users : List (String × String)) : Operation where
  name? := none
  kind := .query
  parameters := []
  selections := users.map fun (key, field) => .field (some key) "user" false [.field none field false []]
  source := ""

def users : List (String × String) := [("a", "id"), ("b", "name"), ("c", "id")]

def usersDocument : Document := ⟨[usersQuery users], []⟩

def userField : String × String → CollectedField
  | (key, field) => ⟨key, "user", "Query", false, [.field field field false []]⟩

def userSite (field : String) : CallSite where
  type := .object ⟨"User", none, [], [⟨"id", .named "ID", none⟩, ⟨"name", .named "String", none⟩]⟩
  selections := [.field field field false []]
  name? := none

/-- The shape of a user is made after the fields before it are resolved. -/
theorem users_receive (before : List (String × String)) {after : List (String × String)} {key field n : String}
    (husers : users = before ++ (key, field) :: after) {qs : List Property} {q q' : Progress}
    (hbefore : Runs ((before.map userField).mapM ((people "Role").property (people "Role").fieldResolver "Query"
      ((people "Role").fieldsOf "Query"))) .start qs q)
    (hmake : Runs ((userSite field).make (people "Role")) q n q') :
    (people "Role").Receives usersDocument n q'.registry := by
  have hroot : (people "Role").find? "Query" = some (.object ⟨"Query", none, [], (people "Role").fieldsOf "Query"⟩) := rfl
  have hcollect : Expanded.collect (people "Role") "Query" (usersDocument.expand (usersQuery users).selections) =
      .ok (users.map userField) := by cbv
  have hne : usersDocument.expand (usersQuery users).selections ≠ [] := by
    simp [Document.expand, Document.expandWith, usersQuery, users]
  rw [show users.map userField = before.map userField ++ userField (key, field) :: after.map userField by
    rw [husers, List.map_append, List.map_cons]] at hcollect
  have hfirst : usersDocument.operations = [] ++ usersQuery users :: [] := rfl
  have hdata := Reached.data (s := people "Role") (d := usersDocument) hfirst (runs_pure.2 ⟨rfl, rfl⟩) (by cbv) hroot
  have hdeclared : (people "Role").declaration? ((people "Role").fieldsOf "Query") (userField (key, field)) =
      some ⟨"user", .named "User", none⟩ := rfl
  have huser : (people "Role").find? "User" = some (userSite field).type := rfl
  have hsite := Makes.field (c := ⟨.object _, _, some ((people "Role").dataName (usersQuery users))⟩) hne (.object rfl)
    hcollect hbefore hdeclared huser rfl
  exact ⟨userSite field, q, q', hdata.made hsite, rfl, hmake, rfl⟩

theorem users_canonical : ∃ r₁ r₂ r₃ u₁ u₂ u₃,
    (people "Role").Receives usersDocument "User" r₁ ∧ (people "Role").Receives usersDocument "User2" r₂ ∧
    (people "Role").Receives usersDocument "User" r₃ ∧ r₁.Unfolds "User" u₁ ∧ r₂.Unfolds "User2" u₂ ∧
    r₃.Unfolds "User" u₃ ∧ u₁ ≠ u₂ ∧ u₁ = u₃ := by
  have ha := users_receive [] rfl (runs_pure.2 ⟨rfl, rfl⟩)
    (runs_of_outcome (x := (userSite "id").make (people "Role")) (a := "User") (by cbv))
  have hb := users_receive [("a", "id")] rfl (runs_of_outcome (by cbv))
    (runs_of_outcome (x := (userSite "name").make (people "Role")) (a := "User2") (by cbv))
  have hc := users_receive [("a", "id"), ("b", "name")] rfl (runs_of_outcome (by cbv))
    (runs_of_outcome (x := (userSite "id").make (people "Role")) (a := "User") (by cbv))
  obtain ⟨u₁, u₂, hu₁, hu₂, hne⟩ := names_canonical ha hb
  obtain ⟨u, u₃, hu, hu₃, heq⟩ := names_canonical ha hc
  obtain rfl := hu₁.unique hu
  exact ⟨_, _, _, u₁, u₂, u₃, ha, hb, hc, hu₁, hu₂, hu₃, fun h => absurd (hne.2 h) (by decide), heq.1 rfl⟩

end Schema

end TypedQuery
