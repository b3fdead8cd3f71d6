/-
Call sites apart from a run. `Sites` are the places at which an operation has
shapes made, found by collecting and splitting alone. A run that succeeds has
made the shape of every site (`Sites.runs`), and makes no others: each shape
it registers of a response holds the fields that were collected at a site, with
the types of their declarations (`calls_planted`).
-/
import TypedQuery.Proofs.AbstractShapes
import TypedQuery.Proofs.CanonicalNames
import TypedQuery.Proofs.Failures
import TypedQuery.Proofs.Integrity

namespace TypedQuery

open Generator

/-! ## Sites -/

/-- The fields that are collected for the shape of the site. -/
def CallSite.Collects (s : Schema) (c : CallSite) (collected : List CollectedField) : Prop :=
  ∃ own, c.Own s own ∧ Expanded.collect s c.type.name own = .ok collected

namespace Schema

/-- The call sites of an operation: that of its data, those of the fields of composite types that are
collected at a site, and those of the objects of an interface or a union on which something is selected.
Of an object that is possible twice, the second variant has no branch. -/
inductive Sites (s : Schema) (d : Document) (op : Operation) : CallSite → Prop
  | data {root} (hroot : s.find? (s.rootType op.kind) = some (.object root)) :
    Sites s d op ⟨.object root, d.expand op.selections, some (s.dataName op)⟩
  | field {c collected f g t} (h : Sites s d op c) (hcollects : c.Collects s collected) (hf : f ∈ collected)
    (hg : s.declaration? c.type.fields f = some g) (ht : s.find? g.type.baseName = some t)
    (hcomposite : t.isComposite = true) : Sites s d op ⟨t, f.selections, none⟩
  | variant {c common branches before R after o} (h : Sites s d op c) (hc : ∀ o, c.type ≠ .object o)
    (hsplit : Expanded.split s c.type.name c.selections = .ok (common, branches)) (hbranches : branches ≠ [])
    (htypes : s.possibleTypes c.type.name = before ++ R :: after) (ho : s.find? R = some (.object o))
    (hselects : common ++ (before.foldl Branches.remove branches).get R ≠ []) :
    Sites s d op ⟨.object o, common ++ (before.foldl Branches.remove branches).get R, none⟩

variable {s : Schema} {d : Document} {op : Operation} {c : CallSite} {p p' : Progress}

/-- The type of a site is a composite type of the schema. -/
theorem Sites.type (h : s.Sites d op c) : s.find? c.type.name = some c.type ∧ c.type.isComposite = true := by
  cases h with
  | data hroot => exact ⟨find?_self hroot, rfl⟩
  | field _ _ _ _ ht hcomposite => exact ⟨find?_self ht, hcomposite⟩
  | variant _ _ _ _ _ ho _ => exact ⟨find?_self ho, rfl⟩

/-! ## Every site is run -/

/-- The shape of a site is made from the properties of what it collects. -/
theorem runs_properties_of_make {n : String} (h : Runs (c.make s) p n p') {own : List Expanded}
    (hown : c.Own s own) :
    ∃ qs q, Runs (s.properties s.fieldResolver c.type.name c.type.fields own) p qs q := by
  cases hown with
  | @object o hc =>
    rw [CallSite.make_object hc] at h
    obtain ⟨-, qs, q, hqs, -⟩ := objectShape_parts h
    exact ⟨qs, q, hc ▸ hqs⟩
  | common hc hsplit =>
    rw [CallSite.make_abstract hc] at h
    obtain ⟨-, common, branches, qs, vs, q, -, hsplit', hqs, -⟩ := abstractShape_parts h
    obtain ⟨rfl, -⟩ := Prod.mk.inj (Except.ok.inj (hsplit.symm.trans hsplit'))
    exact ⟨qs, q, hqs⟩

/-- The fields of a site are resolved with what is selected below them. -/
theorem runs_resolver_of_make {n : String} (h : Runs (c.make s) p n p') {collected : List CollectedField}
    (hcollects : c.Collects s collected) {f : CollectedField} (hf : f ∈ collected) {g : FieldDefinition}
    (hg : s.declaration? c.type.fields f = some g) : ∃ q t q', Runs (s.fieldResolver g f.selections) q t q' := by
  obtain ⟨own, hown, hcollect⟩ := hcollects
  obtain ⟨qs, q, hqs⟩ := runs_properties_of_make h hown
  obtain ⟨-, -, collected', hcollect', hall⟩ :=
    properties_runs (F := fun _ g below t => ∃ q q', Runs (s.fieldResolver g below) q t q')
      (fun _ _ _ _ _ _ => id)
      (fun _ _ q _ q' _ hr => ⟨trivial, (fieldResolver_grows _ _).runs hr, q, q', hr⟩) trivial hqs
  obtain rfl := Except.ok.inj (hcollect.symm.trans hcollect')
  obtain ⟨_, -, g', t, hg', ⟨q, q', hr⟩, -⟩ := exists_of_forall₂_left hall hf
  obtain rfl := Option.some.inj (hg.symm.trans hg')
  exact ⟨q, t, q', hr⟩

/-- A field of a composite type is resolved by making the shape of its site. -/
theorem runs_make_of_resolver {g : FieldDefinition} {below : List Expanded} {t : PropertyType}
    {type : TypeDefinition} (h : Runs (s.fieldResolver g below) p t p') (ht : s.find? g.type.baseName = some type)
    (hcomposite : type.isComposite = true) : ∃ n, Runs (CallSite.make s ⟨type, below, none⟩) p n p' := by
  rw [fieldResolver_eq] at h
  obtain ⟨base, hbase, -⟩ := fieldTypeOver_runs h
  cases hbase with
  | scalar hfind =>
    obtain rfl := Option.some.inj (ht.symm.trans hfind)
    cases hcomposite
  | enumeration hfind =>
    obtain rfl := Option.some.inj (ht.symm.trans hfind)
    cases hcomposite
  | object hfind hr =>
    obtain rfl := Option.some.inj (ht.symm.trans hfind)
    exact ⟨_, hr⟩
  | abstract hfind hk hr =>
    obtain rfl := Option.some.inj (ht.symm.trans hfind)
    refine ⟨_, (CallSite.make_abstract (c := ⟨type, below, none⟩) fun o ho => ?_) ▸ hr⟩
    simp [show type = .object o from ho, TypeDefinition.kind] at hk

/-- **A successful run has made the shape of every site.** -/
theorem Sites.runs (h : s.Sites d op c) {shape : OperationShape} (hrun : Runs (s.operationShapes d op) p shape p') :
    ∃ q n q', Runs (c.make s) q n q' := by
  induction h with
  | data hroot =>
    obtain ⟨-, root, q', hroot', hobject, -⟩ := operationShapes_runs hrun
    obtain rfl := TypeDefinition.object.inj (Option.some.inj (hroot.symm.trans hroot'))
    rw [objectShape_fieldResolver] at hobject
    exact ⟨_, _, _, hobject⟩
  | field _ hcollects hf hg ht hcomposite ih =>
    obtain ⟨_, _, _, hmake⟩ := ih
    obtain ⟨q, t, q', hresolve⟩ := runs_resolver_of_make hmake hcollects hf hg
    obtain ⟨n, hr⟩ := runs_make_of_resolver hresolve ht hcomposite
    exact ⟨q, n, q', hr⟩
  | variant _ hc hsplit hbranches htypes ho hselects ih =>
    obtain ⟨_, _, _, hmake⟩ := ih
    rw [CallSite.make_abstract hc] at hmake
    obtain ⟨-, common', branches', -, vs, q, _, hsplit', -, hvariants, -⟩ := abstractShape_parts hmake
    obtain ⟨rfl, rfl⟩ := Prod.mk.inj (Except.ok.inj (hsplit.symm.trans hsplit'))
    obtain ⟨-, _, -, -, hvs⟩ := hvariants.resolve_left fun hnone => hbranches hnone.1
    exact (variantRuns_of_runs hvs).objectShape htypes ho hselects

/-- At no site of a successful run is nothing selected. -/
theorem Sites.selections_ne_nil (h : s.Sites d op c) {shape : OperationShape}
    (hrun : Runs (s.operationShapes d op) p shape p') : c.selections ≠ [] := by
  obtain ⟨q, n, q', hmake⟩ := h.runs hrun
  unfold CallSite.make at hmake
  split at hmake
  · exact (objectShape_parts hmake).1
  · exact (abstractShape_parts hmake).1

/-! ## Nothing else is registered -/

end Schema

/-- The shape is of the site's type, and its properties are those of the fields collected at the site, with the
types that these are declared with. -/
def CallSite.Made (s : Schema) (c : CallSite) (shape : Shape) : Prop :=
  shape.schemaType = c.type.name ∧ ∃ collected, c.Collects s collected ∧
    List.Forall₂ (s.IsProperty c.type.fields fun g _ t => Schema.TypedAs g t) collected shape.properties

namespace Schema

/-- Every shape of a response has been made at a site of one of the operations. -/
def Planted (s : Schema) (d : Document) (ops : List Operation) (p : Progress) : Prop :=
  ∀ shape ∈ p.registry.shapes, shape.kind.isOutput = true → ∃ op ∈ ops, ∃ c, s.Sites d op c ∧ c.Made s shape

section Planted

variable {s : Schema} {d : Document} {op : Operation} {ops : List Operation} {resolve : FieldResolver}
  {p p' : Progress}

theorem Planted.keeps {r : Registry} {t : Shape} (h : s.Planted d ops p) (hk : p.registry.Keeps t r)
    (ht : t.kind.isOutput = true → ∃ op ∈ ops, ∃ c, s.Sites d op c ∧ c.Made s t) {expanding : List String} :
    s.Planted d ops ⟨r, expanding⟩ :=
  hk.all h ht

theorem Planted.register {shape : Shape} {name? : Option String} {n : String} (hI : s.Planted d ops p)
    (h : Runs (register shape name?) p n p')
    (hnew : shape.kind.isOutput = true → ∃ op ∈ ops, ∃ c, s.Sites d op c ∧ c.Made s shape) :
    s.Planted d ops p' ∧ p.Grows p' :=
  ⟨hI.keeps (register_runs h).1 hnew, (register_grows _ _).runs h⟩

/-- Called for fields of sites, the resolver only has shapes made at sites, and returns types as declared. -/
def Plants (s : Schema) (d : Document) (ops : List Operation) (op : Operation) (resolve : FieldResolver) : Prop :=
  ∀ ⦃g below p t p'⦄, (∀ type, s.find? g.type.baseName = some type → type.isComposite = true →
    s.Sites d op ⟨type, below, none⟩) → s.Planted d ops p → Runs (resolve g below) p t p' →
      s.Planted d ops p' ∧ p.Grows p' ∧ TypedAs g t

theorem properties_planted (hres : s.Plants d ops op resolve) {c : CallSite} {own : List Expanded} {qs : List Property}
    (hsite : s.Sites d op c) (hown : c.Own s own) (hI : s.Planted d ops p)
    (h : Runs (s.properties resolve c.type.name c.type.fields own) p qs p') :
    s.Planted d ops p' ∧ p.Grows p' ∧ ∃ collected, c.Collects s collected ∧
      List.Forall₂ (s.IsProperty c.type.fields fun g _ t => TypedAs g t) collected qs := by
  obtain ⟨collected, p₀, hlift, hm⟩ := runs_bind.1 h
  obtain ⟨hcollect, rfl⟩ := runs_liftExcept.1 hlift
  have hcollects : c.Collects s collected := ⟨own, hown, hcollect⟩
  obtain ⟨hI', hg, hall⟩ := runs_mapM (Q := fun _ => s.IsProperty c.type.fields fun g _ t => TypedAs g t)
    (fun _ => id) (fun f hf p q p' hI hq => by
      unfold property at hq
      split at hq
      next => exact absurd hq runs_throw
      next g hdeclared =>
        obtain ⟨t, p₁, ht, hpure⟩ := runs_bind.1 hq
        obtain ⟨rfl, rfl⟩ := runs_pure.1 hpure
        obtain ⟨hI₁, hg₁, htyped⟩ := hres (fun _ => hsite.field hcollects hf hdeclared) hI ht
        exact ⟨hI₁, hg₁, g, t, hdeclared, htyped, rfl⟩) hI hm
  exact ⟨hI', hg, collected, hcollects, hall⟩

theorem objectShape_planted (hop : op ∈ ops) (hres : s.Plants d ops op resolve) {o : ObjectDefinition}
    {selections : List Expanded} {name? : Option String} {n : String}
    (hsite : s.Sites d op ⟨.object o, selections, name?⟩) (hI : s.Planted d ops p)
    (h : Runs (s.objectShape resolve o selections name?) p n p') : s.Planted d ops p' ∧ p.Grows p' := by
  obtain ⟨-, qs, p₁, hqs, hreg⟩ := objectShape_parts h
  obtain ⟨hI₁, hg₁, hcollected⟩ := properties_planted hres hsite (.object rfl) hI hqs
  obtain ⟨hI', hg'⟩ := hI₁.register hreg fun _ => ⟨op, hop, _, hsite, rfl, hcollected⟩
  exact ⟨hI', hg₁.trans hg'⟩

theorem variants_planted (hop : op ∈ ops) (hres : s.Plants d ops op resolve) {common : List Expanded}
    {branches : Branches} {types : List String} {vs : List Variant}
    (hsites : ∀ before R after, types = before ++ R :: after → ∀ o, s.find? R = some (.object o) →
      common ++ (before.foldl Branches.remove branches).get R ≠ [] →
        s.Sites d op ⟨.object o, common ++ (before.foldl Branches.remove branches).get R, none⟩)
    (hI : s.Planted d ops p) (h : s.VariantRuns resolve common branches types p vs p') :
    s.Planted d ops p' ∧ p.Grows p' := by
  induction h with
  | nil => exact ⟨hI, .refl _⟩
  | @passed _ t _ _ _ _ _ _ ih =>
    exact ih (fun before R after he => hsites (t :: before) R after (by rw [he, List.cons_append])) hI
  | @made _ t _ _ _ _ _ _ _ ho hne hr _ ih =>
    obtain ⟨hI₁, hg₁⟩ := objectShape_planted hop hres (hsites [] t _ rfl _ ho hne) hI hr
    obtain ⟨hI', hg'⟩ :=
      ih (fun before R after he => hsites (t :: before) R after (by rw [he, List.cons_append])) hI₁
    exact ⟨hI', hg₁.trans hg'⟩

theorem abstractShape_planted (hop : op ∈ ops) (hres : s.Plants d ops op resolve) {type : TypeDefinition}
    {selections : List Expanded} {name? : Option String} {n : String} (hobject : ∀ o, type ≠ .object o)
    (hsite : s.Sites d op ⟨type, selections, name?⟩) (hI : s.Planted d ops p)
    (h : Runs (s.abstractShape resolve type selections name?) p n p') : s.Planted d ops p' ∧ p.Grows p' := by
  obtain ⟨-, common, branches, qs, vs, p₁, p₂, hsplit, hqs, hvariants, hreg⟩ := abstractShape_parts h
  obtain ⟨hI₁, hg₁, hcollected⟩ := properties_planted hres hsite (.common hobject hsplit) hI hqs
  have hbranches : s.Planted d ops p₂ ∧ p₁.Grows p₂ := by
    rcases hvariants with ⟨-, -, rfl⟩ | ⟨hne, _, -, -, hvs⟩
    · exact ⟨hI₁, .refl _⟩
    · exact variants_planted hop hres
        (fun _ _ _ htypes _ ho hselects => hsite.variant hobject hsplit hne htypes ho hselects) hI₁
        (variantRuns_of_runs hvs)
  obtain ⟨hI₂, hg₂⟩ := hbranches
  obtain ⟨hI', hg'⟩ := hI₂.register hreg fun _ => ⟨op, hop, _, hsite, rfl, hcollected⟩
  exact ⟨hI', hg₁.trans (hg₂.trans hg')⟩

theorem enumShape_planted {definition : EnumDefinition} {n : String} (hI : s.Planted d ops p)
    (h : Runs (enumShape definition) p n p') : s.Planted d ops p' ∧ p.Grows p' :=
  hI.register h (by simp [EnumDefinition.shape, ShapeKind.isOutput])

/-- One more level of fields is made at sites as well. -/
theorem fieldTypeOver_plants (hop : op ∈ ops) (hres : s.Plants d ops op resolve) :
    s.Plants d ops op (s.fieldTypeOver resolve) := by
  intro g below p t p' hsite hI h
  obtain ⟨base, hbase, ht⟩ := fieldTypeOver_runs h
  have hplanted : s.Planted d ops p' ∧ p.Grows p' := by
    cases hbase with
    | scalar => exact ⟨hI, .refl _⟩
    | enumeration _ hr => exact enumShape_planted hI hr
    | object hfind hr => exact objectShape_planted hop hres (hsite _ hfind rfl) hI hr
    | @abstract type _ _ hfind hk hr =>
      have hobject : ∀ o, type ≠ .object o := by
        rintro o rfl
        simp [TypeDefinition.kind] at hk
      have hcomposite : type.isComposite = true := by
        cases type <;> simp [TypeDefinition.kind, TypeDefinition.isComposite] at hk ⊢
      exact abstractShape_planted hop hres hobject (hsite _ hfind hcomposite) hI hr
  exact ⟨hplanted.1, hplanted.2, base, ht⟩

theorem fieldType_plants (hop : op ∈ ops) (levels : Nat) : s.Plants d ops op (s.fieldType levels) :=
  fieldType_induct (P := s.Plants d ops op) (fun _ _ _ _ _ _ _ h => absurd h runs_throw)
    (fun _ => fieldTypeOver_plants hop) levels

theorem allowsInputs_planted : s.AllowsInputs (s.Planted d ops) fun _ => True where
  ordinary := fun _ _ => trivial
  enumeration := fun _ _ _ hp => ends_register_some (fun _ _ _ => trivial) fun _ hk =>
    Planted.keeps hp hk (by simp [EnumDefinition.shape, ShapeKind.isOutput])
  enter := fun _ _ _ _ hp => hp
  input := fun _ _ _ _ _ _ hq _ => ends_register_some (fun _ _ _ => trivial) fun _ hk =>
    Planted.keeps hq hk (by simp [ShapeKind.isOutput])

/-- **Every shape of a response is made at a site** of one of the operations that are called. -/
theorem calls_planted (s : Schema) (d : Document) (ops : List Operation) :
    s.Planted d ops (s.calls d ops .start).2 := by
  have hstart : s.Planted d ops .start := fun shape h => by simp [Progress.start, Registry.empty] at h
  refine (calls_induct_of_mem (Q := fun _ _ => True) (fun _ _ _ _ => id) ops
    (fun op hop p shape p' hI h => ?_) hstart).1
  obtain ⟨-, root, p₁, hroot, hdata, hvars⟩ := operationShapes_runs h
  have hI₁ := (objectShape_planted hop (fieldType_plants hop _) (.data hroot) hI hdata).1
  exact ⟨(variableProperties_leads allowsInputs_planted _ p₁ hI₁).2 _ _ hvars, trivial⟩

end Planted

end Schema

end TypedQuery
