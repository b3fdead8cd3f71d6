/-
Reference integrity. In the registry that any calls leave, every name in use
is registered, an output shape refers to earlier shapes only, and a reference
leads to a shape of the type it was made for (`calls_integrity`).

Inside an operation this is not true: an input object is referred to before
it is registered. `Sound` is what generators preserve: the names in `pending`
(those being expanded) may still be missing, and only from input objects.
-/
import TypedQuery.Proofs.OperationRuns

namespace TypedQuery

open Generator

namespace ShapeKind

/-- The kind of the schema types that shapes of this kind are made for. -/
def typeKind : ShapeKind → TypeKind
  | object => .object
  | enumeration _ => .enumeration
  | interface _ => .interface
  | union _ => .union
  | inputObject => .inputObject

/-- Shapes of what a server returns, as opposed to enums and to what a client sends. -/
def isOutput : ShapeKind → Bool
  | object | interface _ | union _ => true
  | enumeration _ | inputObject => false

end ShapeKind

/-- The names by which `shape` refers to others. -/
def Shape.Uses (shape : Shape) (n : String) : Prop :=
  (∃ q ∈ shape.properties, q.type.base = .generated n) ∨ ∃ v ∈ shape.variants, v.shapeName = n

namespace Schema

/-- `n` is registered, for a shape of the schema type `type` and of the kind of that type. -/
def Resolves (s : Schema) (r : Registry) (n type : String) : Prop :=
  ∃ t d, r.lookup? n = some t ∧ t.schemaType = type ∧ s.find? type = some d ∧ t.kind.typeKind = d.kind

/-- `f` declares the field `name` where it is selected on `type`: it is declared by the type, or
else by a type that covers it. -/
def Declares (s : Schema) (type name : String) (f : FieldDefinition) : Prop :=
  (name = typenameField.name ∧ f = typenameField) ∨ name ≠ typenameField.name ∧
    ∃ scope, s.covers scope type = true ∧ (s.fieldsOf type ++ s.fieldsOf scope).find? (·.name = name) = some f

theorem isOutput_abstractKind (kind : TypeKind) (vs : List Variant) : (abstractKind kind vs).isOutput = true := by
  unfold abstractKind
  split <;> rfl

/-- Every reference of an output shape leads to a shape in `r` of the right type. -/
structure OutputHolds (s : Schema) (r : Registry) (shape : Shape) : Prop where
  properties : ∀ q ∈ shape.properties, ∃ f, s.Declares shape.schemaType q.fieldName f ∧
    ∀ n, q.type.base = .generated n → s.Resolves r n f.type.baseName
  variants : ∀ v ∈ shape.variants, ∃ t, r.lookup? v.shapeName = some t ∧ t.kind = .object ∧
    t.schemaType = v.typename

/-- The base of an input of the type named `type`: an enum is registered, an input object is
registered or pending. -/
inductive InputBase (s : Schema) (r : Registry) (pending : List String) (type : String) : BaseType → Prop
  | scalar {d} (h : s.find? type = some (.scalar d)) :
    InputBase s r pending type (.scalar d.name (s.hostType d.name))
  | enumeration {d} (h : s.find? type = some (.enumeration d)) (hl : r.lookup? d.name = some d.shape) :
    InputBase s r pending type (.generated d.name)
  | input {d} (h : s.find? type = some (.input d)) (hn : d.name ∈ r.names ∨ d.name ∈ pending) :
    InputBase s r pending type (.generated d.name)

/-- The property `q` is the one of the input field `f`. -/
def IsInputProperty (s : Schema) (r : Registry) (pending : List String) (f : FieldDefinition) (q : Property) :
    Prop :=
  ∃ base, q = ⟨f.name, f.name, .ofTypeRef f.type base, f.description?⟩ ∧
    s.InputBase r pending f.type.baseName base

/-- The shapes of enums and of input objects. -/
inductive InputHolds (s : Schema) (r : Registry) (pending : List String) : Shape → Prop
  | enumeration {d} (h : s.find? d.name = some (.enumeration d)) : InputHolds s r pending d.shape
  | input {d qs} (h : s.find? d.name = some (.input d))
    (hf : List.Forall₂ (s.IsInputProperty r pending) d.fields qs) :
    InputHolds s r pending ⟨d.name, d.name, .inputObject, d.description?, qs⟩

end Schema

namespace Registry

/-- What generators preserve of the registry while the input objects in `pending` are expanded. -/
structure Sound (s : Schema) (r : Registry) (pending : List String) : Prop where
  nodup : r.names.Nodup
  output : ∀ pre shape post, r.shapes = pre ++ shape :: post → shape.kind.isOutput = true →
    s.OutputHolds ⟨pre⟩ shape
  input : ∀ shape ∈ r.shapes, shape.kind.isOutput = false → s.InputHolds r pending shape

/-- **Reference integrity.** Every name that a shape uses is registered; an output shape uses only
earlier names; a property selected from a declared field leads to a shape of the field's type, of
the type's kind; and a variant leads to an object shape of its run-time type. -/
structure Integrity (s : Schema) (r : Registry) : Prop where
  closed : ∀ shape ∈ r.shapes, ∀ n, shape.Uses n → n ∈ r.names
  ordered : ∀ pre shape post, r.shapes = pre ++ shape :: post → shape.kind.isOutput = true →
    ∀ n, shape.Uses n → n ∈ pre.map (·.name)
  selected : ∀ shape ∈ r.shapes, shape.kind.isOutput = true → ∀ q ∈ shape.properties,
    ∃ f, s.Declares shape.schemaType q.fieldName f ∧
      ∀ n, q.type.base = .generated n → s.Resolves r n f.type.baseName
  variants : ∀ shape ∈ r.shapes, ∀ v ∈ shape.variants, ∃ t, r.lookup? v.shapeName = some t ∧
    t.kind = .object ∧ t.schemaType = v.typename

end Registry

namespace Schema

/-! ## References last -/

section Lasts

variable {s : Schema} {r r' : Registry} {pending pending' : List String}

theorem names_of_extends (h : r'.Extends r) {n : String} (hn : n ∈ r.names) : n ∈ r'.names :=
  (List.IsPrefix.map (·.name) h).subset hn

theorem mem_names_of_lookup? {n : String} {t : Shape} (h : r.lookup? n = some t) : n ∈ r.names :=
  Registry.lookup?_name h ▸ List.mem_map_of_mem (Registry.mem_of_lookup? h)

theorem Resolves.extends {n type : String} (h : s.Resolves r n type) (hext : r'.Extends r) :
    s.Resolves r' n type := by
  obtain ⟨t, d, hl, rest⟩ := h
  exact ⟨t, d, hext.lookup? hl, rest⟩

theorem Resolves.mem_names {n type : String} (h : s.Resolves r n type) : n ∈ r.names := by
  obtain ⟨t, d, hl, -⟩ := h
  exact mem_names_of_lookup? hl

theorem OutputHolds.extends {shape : Shape} (h : s.OutputHolds r shape) (hext : r'.Extends r) :
    s.OutputHolds r' shape := by
  constructor
  · intro q hq
    obtain ⟨f, hf, hall⟩ := h.properties q hq
    exact ⟨f, hf, fun n hn => (hall n hn).extends hext⟩
  · intro v hv
    obtain ⟨t, hl, ht⟩ := h.variants v hv
    exact ⟨t, hext.lookup? hl, ht⟩

theorem OutputHolds.mem_names {shape : Shape} (h : s.OutputHolds r shape) {n : String} (hn : shape.Uses n) :
    n ∈ r.names := by
  rcases hn with ⟨q, hq, hbase⟩ | ⟨v, hv, rfl⟩
  · obtain ⟨f, -, hall⟩ := h.properties q hq
    exact (hall n hbase).mem_names
  · obtain ⟨t, hl, -⟩ := h.variants v hv
    exact mem_names_of_lookup? hl

theorem InputBase.extends {type : String} {base : BaseType} (h : s.InputBase r pending type base)
    (hext : r'.Extends r) (hp : ∀ n ∈ pending, n ∈ r'.names ∨ n ∈ pending') :
    s.InputBase r' pending' type base := by
  cases h with
  | scalar h => exact .scalar h
  | enumeration h hl => exact .enumeration h (hext.lookup? hl)
  | input h hn => exact .input h (hn.elim (fun hr => .inl (names_of_extends hext hr)) (hp _))

theorem InputBase.mem_names {type n : String} (h : s.InputBase r pending type (.generated n)) :
    n ∈ r.names ∨ n ∈ pending := by
  cases h with
  | enumeration h hl => exact .inl (mem_names_of_lookup? hl)
  | input h hn => exact hn

theorem InputHolds.extends {shape : Shape} (h : s.InputHolds r pending shape)
    (hext : r'.Extends r) (hp : ∀ n ∈ pending, n ∈ r'.names ∨ n ∈ pending') :
    s.InputHolds r' pending' shape := by
  cases h with
  | enumeration h => exact .enumeration h
  | input h hf =>
    refine .input h (hf.imp fun f q hq => ?_)
    obtain ⟨base, rfl, hb⟩ := hq
    exact ⟨base, rfl, hb.extends hext hp⟩

theorem InputHolds.mem_names {shape : Shape} (h : s.InputHolds r pending shape) {n : String}
    (hn : shape.Uses n) : n ∈ r.names ∨ n ∈ pending := by
  cases h with
  | enumeration h => simp [Shape.Uses, EnumDefinition.shape, Shape.variants] at hn
  | @input d qs h hf =>
    rcases hn with ⟨q, hq, hbase⟩ | ⟨v, hv, -⟩
    · obtain ⟨f, -, base, rfl, hb⟩ := exists_of_forall₂_right hf hq
      rw [base_ofTypeRef] at hbase
      exact (hbase ▸ hb).mem_names
    · simp [Shape.variants] at hv

end Lasts

end Schema

/-! ## Sound registries -/

namespace Registry

theorem Sound.nil {s : Schema} {pending : List String} : Sound s .empty pending where
  nodup := List.nodup_nil
  output := fun pre shape post h _ => by simp [empty] at h
  input := by simp [empty]

/-- A name may stop to be pending once it is registered. -/
theorem Sound.settle {s : Schema} {r : Registry} {pending pending' : List String} (h : r.Sound s pending)
    (hp : ∀ n ∈ pending, n ∈ r.names ∨ n ∈ pending') : r.Sound s pending' :=
  ⟨h.nodup, h.output, fun shape hs hkind => (h.input shape hs hkind).extends (.refl r) hp⟩

/-- Keeping a shape whose references hold keeps a registry sound. -/
theorem Sound.keeps {s : Schema} {r r' : Registry} {pending pending' : List String} {t : Shape}
    (h : r.Sound s pending) (hk : r.Keeps t r') (hp : ∀ n ∈ pending, n ∈ r'.names ∨ n ∈ pending')
    (hout : t.kind.isOutput = true → s.OutputHolds r t)
    (hin : t.kind.isOutput = false → s.InputHolds r' pending' t) : r'.Sound s pending' := by
  have hold : ∀ shape ∈ r.shapes, shape.kind.isOutput = false → s.InputHolds r' pending' shape :=
    fun shape hs hk' => (h.input shape hs hk').extends hk.extends hp
  have houtput := hk.each (P := fun r shape => shape.kind.isOutput = true → s.OutputHolds r shape) h.output hout
  exact ⟨hk.nodup h.nodup, houtput, hk.all hold hin⟩

/-- With nothing pending, a sound registry has reference integrity. -/
theorem Sound.integrity {s : Schema} {r : Registry} (h : r.Sound s []) : r.Integrity s := by
  have hpre : ∀ shape ∈ r.shapes, shape.kind.isOutput = true → s.OutputHolds r shape := by
    intro shape hs hkind
    obtain ⟨pre, post, hsplit⟩ := List.append_of_mem hs
    exact (h.output pre shape post hsplit hkind).extends ⟨_, hsplit.symm⟩
  constructor
  · intro shape hs n hn
    cases hkind : shape.kind.isOutput with
    | true => exact (hpre shape hs hkind).mem_names hn
    | false => simpa using (h.input shape hs hkind).mem_names hn
  · intro pre shape post hsplit hkind n hn
    exact (h.output pre shape post hsplit hkind).mem_names hn
  · intro shape hs hkind
    exact (hpre shape hs hkind).properties
  · intro shape hs v hv
    cases hkind : shape.kind.isOutput with
    | true => exact (hpre shape hs hkind).variants v hv
    | false => cases h.input shape hs hkind <;> simp [Shape.variants, EnumDefinition.shape] at hv

end Registry

namespace Schema

/-! ## Output shapes -/

/-- What runs preserve: the registry is sound, up to the input objects being expanded. -/
def KeptSound (s : Schema) (p : Progress) : Prop := p.registry.Sound s p.expanding

theorem keptSound_start (s : Schema) : s.KeptSound .start ∧ Progress.start.expanding = [] :=
  ⟨Registry.Sound.nil, rfl⟩

/-- A generated base of a field's type leads to a shape of the field's type. -/
def FieldResolves (s : Schema) (r : Registry) (f : FieldDefinition) (_ : List Expanded) (t : PropertyType) :
    Prop :=
  ∀ n, t.base = .generated n → s.Resolves r n f.type.baseName

/-- `n` is the shape of an object. -/
def ObjectResolves (r : Registry) (o : ObjectDefinition) (_ : List Expanded) (n : String) : Prop :=
  ∃ t, r.lookup? n = some t ∧ t.kind = .object ∧ t.schemaType = o.name

theorem objectResolves_mono ⦃r r' : Registry⦄ ⦃o : ObjectDefinition⦄ ⦃selections : List Expanded⦄
    ⦃n : String⦄ (hext : r'.Extends r) (h : ObjectResolves r o selections n) :
    ObjectResolves r' o selections n := by
  obtain ⟨t, hl, ht⟩ := h
  exact ⟨t, hext.lookup? hl, ht⟩

theorem fieldResolves_mono {s : Schema} ⦃r r' : Registry⦄ ⦃f : FieldDefinition⦄ ⦃selections : List Expanded⦄
    ⦃t : PropertyType⦄ (hext : r'.Extends r) (h : s.FieldResolves r f selections t) :
    s.FieldResolves r' f selections t := fun n hn => (h n hn).extends hext

/-- Registering a shape whose references hold keeps the registry sound. -/
theorem keptSound_register {s : Schema} {shape : Shape} {name? : Option String} {n : String} {p p' : Progress}
    (hI : s.KeptSound p) (h : Runs (register shape name?) p n p')
    (hout : shape.kind.isOutput = true → s.OutputHolds p.registry { shape with name := n })
    (hin : shape.kind.isOutput = false → s.InputHolds p'.registry p'.expanding { shape with name := n }) :
    s.KeptSound p' := by
  have hg := (register_grows _ _).runs h
  have hpending : ∀ m ∈ p.expanding, m ∈ p'.registry.names ∨ m ∈ p'.expanding :=
    fun m hm => .inr (hg.expanding ▸ hm)
  exact hI.keeps (register_runs h).1 hpending hout hin

theorem register_sound {s : Schema} {shape : Shape} {name? : Option String} {n : String} {p p' : Progress}
    (hI : s.KeptSound p) (h : Runs (register shape name?) p n p') (hkind : shape.kind.isOutput = true)
    (hout : s.OutputHolds p.registry shape) :
    s.KeptSound p' ∧ p.Grows p' ∧ p'.registry.lookup? n = some { shape with name := n } := by
  refine ⟨keptSound_register hI h ?_ ?_, (register_grows _ _).runs h, (register_runs h).1.held⟩
  · intro _
    exact ⟨hout.properties, hout.variants⟩
  · intro hf
    cases hkind.symm.trans hf

theorem enumShape_sound {s : Schema} {d : EnumDefinition} (hd : s.find? d.name = some (.enumeration d))
    {n : String} {p p' : Progress} (hI : s.KeptSound p) (h : Runs (enumShape d) p n p') :
    n = d.name ∧ s.KeptSound p' ∧ p.Grows p' ∧ p'.registry.lookup? d.name = some d.shape := by
  obtain ⟨hk, hname⟩ := register_runs h
  obtain rfl : d.name = n := by simpa using hname
  refine ⟨rfl, keptSound_register hI h ?_ ?_, (register_grows _ _).runs h, hk.held⟩
  · intro hf
    cases hf
  · intro _
    exact .enumeration hd

/-- The properties of the fields collected on a type refer to shapes of the types of those fields. -/
theorem properties_hold {s : Schema} {r : Registry} {type : String} {selections : List Expanded}
    {collected : List CollectedField} {qs : List Property}
    (hc : Expanded.collect s type selections = .ok collected)
    (h : List.Forall₂ (s.IsProperty (s.fieldsOf type) (s.FieldResolves r)) collected qs) :
    ∀ q ∈ qs, ∃ f, s.Declares type q.fieldName f ∧
      ∀ n, q.type.base = .generated n → s.Resolves r n f.type.baseName := by
  intro q hq
  obtain ⟨g, hg, f, t, hdecl, hres, rfl⟩ := exists_of_forall₂_right h hq
  obtain ⟨o, ho, -, -, hscope⟩ := (Expanded.merged_of_collect hc).first hg
  have hcov : s.covers g.scope type = true :=
    hscope ▸ Expanded.scope_of_mem_fieldsIn (by exact s.covers_refl type) ho
  refine ⟨f, ?_, ?_⟩
  · unfold declaration? at hdecl
    split at hdecl
    next hname => exact .inl ⟨hname, (Option.some.inj hdecl).symm⟩
    next hname => exact .inr ⟨hname, g.scope, hcov, hdecl⟩
  · intro n hn
    refine hres n ?_
    dsimp only at hn
    split at hn
    · rwa [base_intoNullable] at hn
    · exact hn

theorem objectShape_sound {s : Schema} {resolve : FieldResolver}
    (hres : Establishes s.KeptSound s.FieldResolves resolve) {name? : Option String} ⦃o : ObjectDefinition⦄
    ⦃selections : List Expanded⦄ ⦃n : String⦄ ⦃p p' : Progress⦄ (ho : s.find? o.name = some (.object o))
    (hI : s.KeptSound p) (h : Runs (s.objectShape resolve o selections name?) p n p') :
    s.KeptSound p' ∧ p.Grows p' ∧ ObjectResolves p'.registry o selections n := by
  obtain ⟨-, collected, qs, p₁, hc, hI₁, hg₁, hall, hreg⟩ := objectShape_runs fieldResolves_mono hres hI h
  have hfields : s.fieldsOf o.name = o.fields := fieldsOf_eq ho
  rw [← hfields] at hall
  obtain ⟨hI', hg', hl⟩ := register_sound hI₁ hreg rfl ⟨properties_hold hc hall, by simp [Shape.variants]⟩
  exact ⟨hI', hg₁.trans hg', _, hl, rfl, rfl⟩

theorem abstractShape_sound {s : Schema} {resolve : FieldResolver}
    (hres : Establishes s.KeptSound s.FieldResolves resolve) {site : TypeDefinition} {name? : Option String}
    {selections : List Expanded} {n : String} {p p' : Progress} (hsite : s.find? site.name = some site)
    (hkind : site.kind = .interface ∨ site.kind = .union) (hI : s.KeptSound p)
    (h : Runs (s.abstractShape resolve site selections name?) p n p') :
    s.KeptSound p' ∧ p.Grows p' ∧ s.Resolves p'.registry n site.name := by
  obtain ⟨-, common, branches, collected, qs, vs, p₁, -, hc, hI₁, hg₁, hall, hvs, hreg⟩ :=
    abstractShape_runs fieldResolves_mono objectResolves_mono hres (objectShape_sound hres) hI h
  rw [← fieldsOf_eq hsite] at hall
  have hvariants : ∀ v ∈ vs, ∃ t, p₁.registry.lookup? v.shapeName = some t ∧ t.kind = .object ∧
      t.schemaType = v.typename := by
    intro v hv
    rcases hvs with ⟨-, rfl⟩ | ⟨-, hvs⟩
    · simp at hv
    · obtain ⟨-, o, _, ho, -, t, hl, ht, hschema⟩ := hvs.made v hv
      exact ⟨t, hl, ht, hschema.trans (find?_name ho)⟩
  have htypeKind : (abstractKind site.kind vs).typeKind = site.kind := by
    rcases hkind with h | h <;> simp [abstractKind, h, ShapeKind.typeKind]
  obtain ⟨hI', hg', hl⟩ := register_sound hI₁ hreg (isOutput_abstractKind _ _)
    ⟨properties_hold hc hall, by rwa [variants_of_abstractKind site.kind vs rfl]⟩
  exact ⟨hI', hg₁.trans hg', _, site, hl, rfl, hsite, htypeKind⟩

/-- One more level of fields keeps registries sound. -/
theorem fieldTypeOver_sound {s : Schema} {resolve : FieldResolver}
    (hres : Establishes s.KeptSound s.FieldResolves resolve) :
    Establishes s.KeptSound s.FieldResolves (s.fieldTypeOver resolve) := by
  intro f selections p t p' hI h
  obtain ⟨base, hbase, rfl⟩ := fieldTypeOver_runs h
  unfold FieldResolves
  rw [base_ofTypeRef]
  cases hbase with
  | scalar hd => exact ⟨hI, .refl _, fun n hn => nomatch hn⟩
  | enumeration hd hr =>
    obtain ⟨rfl, hI', hg, hl⟩ := enumShape_sound (find?_self hd) hI hr
    refine ⟨hI', hg, ?_⟩
    rintro n ⟨⟩
    exact ⟨_, _, hl, find?_name hd, hd, rfl⟩
  | object ho hr =>
    obtain ⟨hI', hg, sh, hl, hkind, hschema⟩ := objectShape_sound hres (find?_self ho) hI hr
    refine ⟨hI', hg, ?_⟩
    rintro n ⟨⟩
    exact ⟨_, _, hl, hschema.trans (find?_name ho), ho, by rw [hkind]; rfl⟩
  | abstract hsite hkind hr =>
    obtain ⟨hI', hg, hres⟩ := abstractShape_sound hres (find?_self hsite) hkind hI hr
    refine ⟨hI', hg, ?_⟩
    rintro n ⟨⟩
    rwa [← find?_name hsite]

theorem fieldType_sound {s : Schema} (levels : Nat) :
    Establishes s.KeptSound s.FieldResolves (s.fieldType levels) :=
  fieldType_induct (P := Establishes s.KeptSound s.FieldResolves) (fun _ _ _ _ _ _ h => absurd h runs_throw)
    (fun _ => fieldTypeOver_sound) levels

/-! ## Inputs -/

/-- The input objects being expanded are distinct types of the schema, and `depth` more fit. -/
structure Room (s : Schema) (depth : Nat) (expanding : List String) : Prop where
  distinct : expanding.Nodup
  types : ∀ n ∈ expanding, n ∈ s.types.map (·.name)
  enough : s.types.length ≤ depth + expanding.length

/-- There is room for an input object that is not being expanded, so levels are left. -/
theorem Room.pos {s : Schema} {expanding : List String} {t : TypeDefinition} (ht : t ∈ s.types)
    (hn : t.name ∉ expanding) : ¬ s.Room 0 expanding := by
  intro h
  have hsub : t.name :: expanding ⊆ s.types.map (·.name) := by
    intro n hn
    rcases List.mem_cons.1 hn with rfl | hn
    · exact List.mem_map_of_mem ht
    · exact h.types n hn
  have hlen := (List.subperm_of_subset (List.nodup_cons.2 ⟨hn, h.distinct⟩) hsub).length_le
  have henough := h.enough
  simp only [List.length_cons, List.length_map] at hlen
  omega

theorem Room.enter {s : Schema} {depth : Nat} {expanding : List String} {t : TypeDefinition}
    (h : s.Room (depth + 1) expanding) (ht : t ∈ s.types) (hn : t.name ∉ expanding) :
    s.Room depth (t.name :: expanding) := by
  refine ⟨List.nodup_cons.2 ⟨hn, h.distinct⟩, ?_, ?_⟩
  · exact List.forall_mem_cons.2 ⟨List.mem_map_of_mem ht, h.types⟩
  · have := h.enough
    simp only [List.length_cons]
    omega

/-- What resolving an input establishes: it refers to what is registered or pending. -/
def InputResolves (s : Schema) (p' : Progress) (type : TypeRef) (t : PropertyType) : Prop :=
  ∃ base, t = .ofTypeRef type base ∧ s.InputBase p'.registry p'.expanding type.baseName base

theorem inputFields_sound {s : Schema} {depth : Nat}
    (hinput : ∀ {type position t p p'}, s.Room depth p.expanding → s.KeptSound p →
      Runs (s.inputType depth type position) p t p' → s.KeptSound p' ∧ p.Grows p' ∧ s.InputResolves p' type t)
    {d : InputDefinition} {qs : List Property} {p p' : Progress} (hroom : s.Room depth p.expanding)
    (hI : s.KeptSound p) (h : Runs (s.inputFields depth d) p qs p') :
    s.KeptSound p' ∧ p.Grows p' ∧ List.Forall₂ (s.IsInputProperty p'.registry p.expanding) d.fields qs := by
  have mono : ∀ {r r' f q}, r'.Extends r → s.IsInputProperty r p.expanding f q →
      s.IsInputProperty r' p.expanding f q := by
    rintro r r' f _ hext ⟨base, rfl, hb⟩
    exact ⟨base, rfl, hb.extends hext fun _ => .inr⟩
  have step : ∀ f ∈ d.fields, ∀ {q : Progress} {prop : Property} {q' : Progress},
      (s.KeptSound q ∧ q.expanding = p.expanding) →
      Runs (do
        let t ← s.inputType depth f.type (.inputField d.name f.name)
        return (⟨f.name, f.name, t, f.description?⟩ : Property)) q prop q' →
      (s.KeptSound q' ∧ q'.expanding = p.expanding) ∧ q.Grows q' ∧
        s.IsInputProperty q'.registry p.expanding f prop := by
    intro f _ q prop q' hq hrun
    obtain ⟨t, q₁, ht, hpure⟩ := runs_bind.1 hrun
    obtain ⟨rfl, rfl⟩ := runs_pure.1 hpure
    obtain ⟨hI', hg, base, rfl, hb⟩ := hinput (hq.2 ▸ hroom) hq.1 ht
    have hexp := hg.expanding.trans hq.2
    exact ⟨⟨hI', hexp⟩, hg, base, rfl, hexp ▸ hb⟩
  obtain ⟨hI', hg, hall⟩ :=
    runs_mapM (I := fun q => s.KeptSound q ∧ q.expanding = p.expanding)
      (Q := fun r => s.IsInputProperty r p.expanding) mono step ⟨hI, rfl⟩ h
  exact ⟨hI'.1, hg, hall⟩

/-- Registering an input object whose fields are resolved settles its name. -/
theorem registerInput_sound {s : Schema} {d : InputDefinition} (hd : s.find? d.name = some (.input d))
    {p p₁ p' : Progress} {qs : List Property} {n : String} (hI : s.KeptSound p₁)
    (hexp : p₁.expanding = d.name :: p.expanding)
    (hall : List.Forall₂ (s.IsInputProperty p₁.registry (d.name :: p.expanding)) d.fields qs)
    (h : Runs (register ⟨d.name, d.name, .inputObject, d.description?, qs⟩ (some d.name)) (p₁.backTo p) n p') :
    n = d.name ∧ s.KeptSound p' ∧ d.name ∈ p'.registry.names := by
  obtain ⟨hk, hname⟩ := register_runs h
  obtain rfl : d.name = n := by simpa using hname
  have hg := (register_grows _ _).runs h
  have hreg : d.name ∈ p'.registry.names := mem_names_of_lookup? hk.held
  have hp : ∀ m ∈ d.name :: p.expanding, m ∈ p'.registry.names ∨ m ∈ p'.expanding := by
    rw [hg.expanding]
    exact List.forall_mem_cons.2 ⟨.inl hreg, fun m hm => .inr hm⟩
  unfold KeptSound at hI
  rw [hexp] at hI
  refine ⟨rfl, hI.keeps hk hp (fun hf => by cases hf) (fun _ => .input hd ?_), hreg⟩
  refine hall.imp fun f q hq => ?_
  obtain ⟨base, rfl, hb⟩ := hq
  exact ⟨base, rfl, hb.extends hg.registry hp⟩

/-- Resolving an input keeps the registry sound. -/
theorem inputType_sound {s : Schema} {depth : Nat} {type : TypeRef} {position : TypePosition}
    {t : PropertyType} {p p' : Progress} (hroom : s.Room depth p.expanding) (hI : s.KeptSound p)
    (h : Runs (s.inputType depth type position) p t p') :
    s.KeptSound p' ∧ p.Grows p' ∧ s.InputResolves p' type t := by
  have hg := (inputType_grows _ _ _).runs h
  obtain ⟨base, hbase, rfl⟩ := inputType_runs h
  cases hbase with
  | scalar hd => exact ⟨hI, hg, _, rfl, .scalar hd⟩
  | enumeration hd hr =>
    obtain ⟨rfl, hI', -, hl⟩ := enumShape_sound (find?_self hd) hI hr
    exact ⟨hI', hg, _, rfl, .enumeration hd hl⟩
  | known hd hk => exact ⟨hI, hg, _, rfl, .input hd hk.symm⟩
  | exhausted hd hn => exact absurd hroom (Room.pos (mem_of_find? hd) hn)
  | @fields depth d qs p₁ n _ hd hn hf hr =>
    have hentered : s.KeptSound (p.enter d.name) := hI.settle fun n hn => .inr (List.mem_cons_of_mem _ hn)
    obtain ⟨hI₁, hg₁, hall⟩ := inputFields_sound (fun hroom hI h => inputType_sound hroom hI h)
      (hroom.enter (mem_of_find? hd) hn) hentered hf
    obtain ⟨rfl, hI', hreg⟩ := registerInput_sound (find?_self hd) hI₁ hg₁.expanding hall hr
    exact ⟨hI', hg, _, rfl, .input hd (.inl hreg)⟩
termination_by depth

/-- The property of a variable: its base is that of the variable's type. -/
def IsVariableProperty (s : Schema) (r : Registry) (v : VariableDefinition) (q : Property) : Prop :=
  q.name = v.name ∧ s.InputBase r [] v.type.baseName q.type.base

theorem room_start (s : Schema) : s.Room s.types.length [] := ⟨List.nodup_nil, by simp, by simp⟩

theorem variableProperties_sound {s : Schema} {parameters : List VariableDefinition} {qs : List Property}
    {p p' : Progress} (hI : s.KeptSound p) (hexp : p.expanding = [])
    (h : Runs (s.variableProperties parameters) p qs p') :
    s.KeptSound p' ∧ p.Grows p' ∧ List.Forall₂ (s.IsVariableProperty p'.registry) parameters qs := by
  have mono : ∀ {r r' v q}, r'.Extends r → s.IsVariableProperty r v q → s.IsVariableProperty r' v q :=
    fun hext hq => ⟨hq.1, hq.2.extends hext fun _ => .inr⟩
  have step : ∀ v ∈ parameters, ∀ {q : Progress} {prop : Property} {q' : Progress},
      (s.KeptSound q ∧ q.expanding = []) →
      Runs (do
        let t ← s.inputType s.types.length v.type (.variable v.name)
        return (⟨v.name, v.name, if v.hasDefault then t.intoNullable else t, none⟩ : Property)) q prop q' →
      (s.KeptSound q' ∧ q'.expanding = []) ∧ q.Grows q' ∧ s.IsVariableProperty q'.registry v prop := by
    intro v _ q prop q' hq hrun
    obtain ⟨t, q₁, ht, hpure⟩ := runs_bind.1 hrun
    obtain ⟨rfl, rfl⟩ := runs_pure.1 hpure
    obtain ⟨hI', hg, base, rfl, hb⟩ := inputType_sound (hq.2 ▸ s.room_start) hq.1 ht
    have hexp := hg.expanding.trans hq.2
    refine ⟨⟨hI', hexp⟩, hg, rfl, ?_⟩
    dsimp only
    rw [hexp] at hb
    split
    · rwa [base_intoNullable, base_ofTypeRef]
    · rwa [base_ofTypeRef]
  obtain ⟨hI', hg, hall⟩ := runs_mapM (I := fun q => s.KeptSound q ∧ q.expanding = [])
    (Q := s.IsVariableProperty) mono step ⟨hI, hexp⟩ h
  exact ⟨hI'.1, hg, hall⟩

/-! ## Whole runs -/

/-- The names in the result of an operation are registered. -/
def ResultRegistered (r : Registry) (shape : OperationShape) : Prop :=
  shape.dataType ∈ r.names ∧ ∀ q ∈ shape.parameters, ∀ n, q.type.base = .generated n → n ∈ r.names

theorem operationShapes_sound {s : Schema} {d : Document} {op : Operation} {shape : OperationShape}
    {p p' : Progress} (hI : s.KeptSound p) (hexp : p.expanding = [])
    (h : Runs (s.operationShapes d op) p shape p') :
    s.KeptSound p' ∧ p'.expanding = [] ∧ shape.dataType ∈ p'.registry.names ∧
      List.Forall₂ (s.IsVariableProperty p'.registry) op.parameters shape.parameters := by
  obtain ⟨-, root, p₁, hroot, hdata, hvars⟩ := operationShapes_runs h
  obtain ⟨hI₁, hg₁, t, hl, -, -⟩ := objectShape_sound (fieldType_sound _) (find?_self hroot) hI hdata
  have hexp₁ := hg₁.expanding.trans hexp
  obtain ⟨hI₂, hg₂, hall⟩ := variableProperties_sound hI₁ hexp₁ hvars
  exact ⟨hI₂, hg₂.expanding.trans hexp₁, names_of_extends hg₂.registry (mem_names_of_lookup? hl), hall⟩

theorem resultRegistered_mono ⦃r r' : Registry⦄ ⦃shape : OperationShape⦄ (hext : r'.Extends r)
    (h : ResultRegistered r shape) : ResultRegistered r' shape :=
  ⟨names_of_extends hext h.1, fun q hq n hn => names_of_extends hext (h.2 q hq n hn)⟩

theorem calls_sound (s : Schema) (d : Document) (ops : List Operation) :
    (s.KeptSound (s.calls d ops .start).2 ∧ (s.calls d ops .start).2.expanding = []) ∧
      ∀ shape, .ok shape ∈ (s.calls d ops .start).1 →
        ResultRegistered (s.calls d ops .start).2.registry shape := by
  have step : ∀ ⦃op p shape p'⦄, (s.KeptSound p ∧ p.expanding = []) → Runs (s.operationShapes d op) p shape p' →
      (s.KeptSound p' ∧ p'.expanding = []) ∧ ResultRegistered p'.registry shape := by
    intro op p shape p' hI h
    obtain ⟨hI', hexp', hdata, hall⟩ := operationShapes_sound hI.1 hI.2 h
    refine ⟨⟨hI', hexp'⟩, hdata, fun q hq n hn => ?_⟩
    obtain ⟨v, -, -, hb⟩ := exists_of_forall₂_right hall hq
    rw [hn] at hb
    exact hb.mem_names.resolve_right (by simp)
  obtain ⟨hI, -, hresults⟩ := calls_induct resultRegistered_mono step ops s.keptSound_start
  exact ⟨hI, hresults⟩

end Schema

end TypedQuery
