/-
Nullability from the schema to the emitted types. The layers of a type
reference go into flags and out of them twice: into the written form of a
property's type, and into the nesting of its emitted type (`around`) and its
text (`typeText`). Neither loses a layer (`hasLayers_ofTypeRef`), and a
conditional key only drops an outer mark (`intoNullable_ofTypeRef`). Since every
shape of a response is made at a site, this holds of all properties, down to
the lines that are written for them (`calls_keep_layers`).
-/
import TypedQuery.Proofs.Sites
import TypedQuery.Proofs.TypeTexts
import TypedQuery.Proofs.WireNames

namespace TypedQuery

/-! ## Layers -/

namespace TypeRef

/-- The same layers around the type `name`. -/
def withBase (name : String) : TypeRef → TypeRef
  | named _ => named name
  | list e => list (e.withBase name)
  | nonNull t => nonNull (t.withBase name)

/-- The reference without a non-null mark around it. -/
def nullable : TypeRef → TypeRef
  | nonNull t => t
  | t => t

/-- No non-null mark is directly inside another. -/
def Proper : TypeRef → Prop
  | named _ => True
  | list e => e.Proper
  | nonNull t => t.isNonNull = false ∧ t.Proper

instance decidableProper : (t : TypeRef) → Decidable t.Proper
  | named _ => .isTrue trivial
  | list e => decidableProper e
  | nonNull t =>
    have := decidableProper t
    inferInstanceAs (Decidable (t.isNonNull = false ∧ t.Proper))

theorem Proper.nullable {t : TypeRef} (h : t.Proper) : t.nullable.Proper := by
  cases t with
  | named | list => exact h
  | nonNull t => exact h.2

end TypeRef

namespace PropertyType

variable {base : BaseType} {t : TypeRef}

theorem render_ofLayers (nullable : Bool) (h : t.Proper) (hmark : nullable = false → t.isNonNull = false) :
    (ofLayers base nullable t).render = (t.withBase base.name).render ++ mark nullable := by
  induction t generalizing nullable with
  | named n => rfl
  | list e ih =>
    have he := ih true h (by simp)
    simp [ofLayers, render, TypeRef.withBase, TypeRef.render, he, mark]
  | nonNull t ih =>
    obtain rfl : nullable = true := by simpa [TypeRef.isNonNull] using hmark
    have ht := ih false h.2 fun _ => h.1
    simp [ofLayers, TypeRef.withBase, TypeRef.render, ht, mark]

/-- The type of a property is written like the reference it is declared with, around its own base. -/
theorem render_ofTypeRef (h : t.Proper) : (ofTypeRef t base).render = (t.withBase base.name).render := by
  rw [ofTypeRef, render_ofLayers true h (by simp), mark, if_pos rfl, String.append_empty]

/-- A conditional key drops the outer mark of its declared type. -/
theorem intoNullable_ofTypeRef (h : t.Proper) : (ofTypeRef t base).intoNullable = ofTypeRef t.nullable base := by
  cases t with
  | named | list => rfl
  | nonNull t =>
    cases t with
    | named | list => rfl
    | nonNull => exact absurd h.1 (by simp [TypeRef.isNonNull])

end PropertyType

/-! ## Emitted types -/

namespace Emission

/-- The emitted type for a reference, where `base` is that of its base: a list layer is a `Vec`, and a layer
without a mark is optional. -/
def FieldType.around (base : FieldType) : TypeRef → FieldType
  | .named _ => .option base
  | .list e => .option (.list (base.around e))
  | .nonNull (.named _) => base
  | .nonNull (.list e) => .list (base.around e)
  | .nonNull (.nonNull t) => base.around (.nonNull t)

/-- The text of the emitted type for a reference, where `base` is that of its base: `Vec` around each list layer, and
`Option` around each layer without a mark. -/
def typeText (base : String) : TypeRef → String
  | .named _ => "Option<" ++ base ++ ">"
  | .list e => "Option<Vec<" ++ typeText base e ++ ">>"
  | .nonNull (.named _) => base
  | .nonNull (.list e) => "Vec<" ++ typeText base e ++ ">"
  | .nonNull (.nonNull t) => typeText base (.nonNull t)

variable {kinds : Kinds} {base : BaseType} {t : TypeRef}

theorem flat_around (base : FieldType) (t : TypeRef) : (base.around t).layout.flat = typeText base.layout.flat t := by
  fun_induction FieldType.around base t with
  | case1 => rw [flat_option, typeText]
  | case2 e ih =>
    have hopen : "Option<Vec<" = "Option<" ++ "Vec<" := rfl
    have hclose : ">>" = ">" ++ ">" := rfl
    rw [flat_option, flat_list, ih, typeText, hopen, hclose]
    simp only [String.append_assoc]
  | case3 => rw [typeText]
  | case4 e ih => rw [flat_list, ih, typeText]
  | case5 t ih => rw [ih, typeText]

theorem fieldType_ofLayers (nullable : Bool) :
    fieldType kinds false (.ofLayers base nullable t) =
      (baseType kinds false base).map (·.around (if nullable then t else .nonNull t)) := by
  induction t generalizing nullable with
  | named n =>
    rw [PropertyType.ofLayers, fieldType]
    cases baseType kinds false base <;> cases nullable <;> rfl
  | list e ih =>
    rw [PropertyType.ofLayers, fieldType, ih true]
    cases baseType kinds false base <;> cases nullable <;> rfl
  | nonNull t ih =>
    rw [PropertyType.ofLayers, ih false]
    cases baseType kinds false base <;> cases nullable <;> rfl

/-- The emitted type of a property has the layers of the reference it is declared with. -/
theorem fieldType_ofTypeRef :
    fieldType kinds false (.ofTypeRef t base) = (baseType kinds false base).map (·.around t) :=
  fieldType_ofLayers true

/-- The type of a property has the layers of `t`: it is written like `t` around its own base, and the fields that are
emitted with it are declared with these layers around the emitted type for the base. -/
structure HasLayers (type : PropertyType) (t : TypeRef) : Prop where
  written : type.render = (t.withBase type.base.name).render
  emitted : ∀ kinds, fieldType kinds false type = (baseType kinds false type.base).map (·.around t)
  declared : ∀ kinds (f : Field), fieldType kinds false type = .ok f.type →
    ∃ base, baseType kinds false type.base = .ok base ∧ f.Declares (typeText base.layout.flat t)

theorem hasLayers_ofTypeRef (h : t.Proper) : HasLayers (.ofTypeRef t base) t where
  written := by rw [Schema.base_ofTypeRef, PropertyType.render_ofTypeRef h]
  emitted _ := by rw [Schema.base_ofTypeRef, fieldType_ofTypeRef]
  declared kinds f hf := by
    rw [Schema.base_ofTypeRef]
    rw [fieldType_ofTypeRef] at hf
    cases hbase : baseType kinds false base with
    | error e =>
      rw [hbase] at hf
      cases hf
    | ok type =>
      rw [hbase] at hf
      have htype : type.around t = f.type := Except.ok.inj hf
      exact ⟨type, rfl, by rw [← flat_around, htype]; exact f.declares⟩

theorem fields_types {role : Role} {taken : List String} {ps : List Property} {fs : List Field}
    (h : fields kinds role taken ps = .ok fs) :
    List.Forall₂ (fun p f => fieldType kinds (role = .input) p.type = .ok f.type) ps fs := by
  have hzip : (ps.zip (fieldNames taken ps)).map Prod.fst = ps := List.map_fst_zip (fieldNames_length taken ps).ge
  rw [← hzip, List.forall₂_map_left_iff]
  refine (fields_forall₂ h).imp fun x f hf => ?_
  obtain ⟨_, -, hf⟩ := bind_eq_ok.1 hf
  obtain ⟨type, htype, hf⟩ := bind_eq_ok.1 hf
  cases hf
  exact htype

/-- A shape of a response without variants is emitted as a structure with a field for each property. -/
theorem shapeItem_output {shape : Shape} {item : Item} (hkind : shape.kind.isOutput = true)
    (hvariants : shape.variants = []) (h : shapeItem kinds shape = .ok item) : ∃ docs name fs, item = .struct .output docs name fs ∧
      List.Forall₂ (fun p f => fieldType kinds false p.type = .ok f.type) shape.properties fs := by
  have hstruct : structItem kinds .output shape = .ok item := by
    unfold shapeItem at h
    split at h
    next hk => simp [hk, ShapeKind.isOutput] at hkind
    next hk => simp [hk, ShapeKind.isOutput] at hkind
    next => rwa [if_pos (by simp [hvariants])] at h
  obtain ⟨name, -, h⟩ := bind_eq_ok.1 hstruct
  obtain ⟨fs, hfs, h⟩ := bind_eq_ok.1 h
  cases h
  exact ⟨_, name, fs, rfl, by simpa using fields_types hfs⟩

end Emission

/-! ## Properties of shapes -/

namespace Schema

variable {s : Schema} {fields : List FieldDefinition} {f : CollectedField} {q : Property}

/-- The property `q` of the key `f` has the layers of its declared type, without an outer mark if the key is
conditional. -/
def KeepsLayers (s : Schema) (fields : List FieldDefinition) (f : CollectedField) (q : Property) : Prop :=
  q.name = f.key ∧ q.fieldName = f.name ∧ ∃ g, s.declaration? fields f = some g ∧
    (g.type.Proper → Emission.HasLayers q.type (if f.conditional then g.type.nullable else g.type))

theorem IsProperty.keepsLayers (h : s.IsProperty fields (fun g _ t => TypedAs g t) f q) : s.KeepsLayers fields f q := by
  obtain ⟨g, t, hg, ⟨base, rfl⟩, rfl⟩ := h
  refine ⟨rfl, rfl, g, hg, fun hproper => ?_⟩
  dsimp only
  split
  next =>
    rw [PropertyType.intoNullable_ofTypeRef hproper]
    exact Emission.hasLayers_ofTypeRef hproper.nullable
  next => exact Emission.hasLayers_ofTypeRef hproper

/-- **Nullability and lists survive from the schema to the emitted types**: every shape of a response was made at a
site, and its properties have the layers that the fields collected there are declared with; the structure that is
emitted for it has a field for each property, and its text has the lines of these fields. -/
theorem calls_keep_layers (s : Schema) (d : Document) (ops : List Operation) :
    ∀ shape ∈ (s.calls d ops .start).2.registry.shapes, shape.kind.isOutput = true →
      (∃ op ∈ ops, ∃ c collected, s.Sites d op c ∧ s.find? shape.schemaType = some c.type ∧
        c.Collects s collected ∧ List.Forall₂ (s.KeepsLayers c.type.fields) collected shape.properties) ∧
      ∀ kinds item, shape.variants = [] → Emission.shapeItem kinds shape = .ok item →
        ∃ docs name fs, item = .struct .output docs name fs ∧ fs.flatMap Emission.Field.lines <:+: item.lines ∧
          List.Forall₂ (fun p f => Emission.fieldType kinds false p.type = .ok f.type) shape.properties fs := by
  intro shape hshape hkind
  obtain ⟨op, hop, c, hsite, hname, collected, hcollects, hall⟩ := s.calls_planted d ops shape hshape hkind
  refine ⟨⟨op, hop, c, collected, hsite, hname ▸ hsite.type.1, hcollects, ?_⟩, fun kinds item hvariants hitem => ?_⟩
  · exact hall.imp fun _ _ => IsProperty.keepsLayers
  · obtain ⟨docs, name, fs, rfl, hfs⟩ := Emission.shapeItem_output hkind hvariants hitem
    exact ⟨docs, name, fs, rfl, Emission.lines_struct .output docs name fs, hfs⟩

/-! A grid of numbers under two keys, one of them conditional. -/

def gridType : TypeRef := .nonNull (.list (.nonNull (.list (.named "Int"))))

def grids : Schema where
  types := [.scalar ⟨"Int", none⟩, .object ⟨"Query", none, [], [⟨"grid", gridType, none⟩]⟩]
  roots := {}
  scalars := .default

def gridQuery : Operation :=
  ⟨none, .query, [], [.field (some "all") "grid" false [], .field (some "some") "grid" true []],
    "query($b: Boolean!) \x7b all: grid some: grid @include(if: $b) \x7d"⟩

def gridShape : Shape :=
  ⟨"QueryData", "Query", .object, none, [
    ⟨"all", "grid", .list (.list (.named (.scalar "Int" "i32") true) false) false, none⟩,
    ⟨"some", "grid", .list (.list (.named (.scalar "Int" "i32") true) false) true, none⟩]⟩

theorem gridShape_emitted : ∃ item, Emission.shapeItem [gridShape] gridShape = .ok item := by
  have hok : (Emission.shapeItem [gridShape] gridShape).isOk = true := by decide +kernel
  cases h : Emission.shapeItem [gridShape] gridShape with
  | ok item => exact ⟨item, rfl⟩
  | error e =>
    rw [h] at hok
    cases hok

theorem flat_baseType_int {type : Emission.FieldType}
    (h : Emission.baseType [gridShape] false (.scalar "Int" "i32") = .ok type) : type.layout.flat = "i32" := by
  have hread : (Emission.HostType.read? "i32").map (·.flat) = some "i32" := by decide +kernel
  rw [Emission.baseType] at h
  split at h
  next l hl =>
    rw [hl] at hread
    cases h
    exact Option.some.inj hread
  next => cases h

theorem grid_keeps_layers : ∃ (collected : List CollectedField) (fs : List Emission.Field) (docs : List String)
    (name : String),
    List.Forall₂ (fun f q => q.name = f.key ∧ q.type.render = if f.conditional then "[[Int]!]" else "[[Int]!]!")
      collected gridShape.properties ∧
    Emission.shapeItem [gridShape] gridShape = .ok (.struct .output docs name fs) ∧
    List.Forall₂ (fun q f => f.Declares (if q.name = "some" then "Option<Vec<Vec<Option<i32>>>>" else
      "Vec<Vec<Option<i32>>>")) gridShape.properties fs := by
  have hshapes : (grids.calls ⟨[gridQuery], []⟩ [gridQuery] .start).2.registry.shapes = [gridShape] := by cbv
  obtain ⟨⟨op, hop, c, collected, hsite, htype, hcollects, hall⟩, hemitted⟩ :=
    grids.calls_keep_layers ⟨[gridQuery], []⟩ [gridQuery] gridShape (by simp [hshapes]) rfl
  obtain ⟨item, hitem⟩ := gridShape_emitted
  obtain ⟨docs, name, fs, rfl, -, hfs⟩ := hemitted [gridShape] item rfl hitem
  have hquery : c.type.fields = [⟨"grid", gridType, none⟩] := by
    rw [← Option.some.inj htype]
    rfl
  have hgrid : ∀ q ∈ gridShape.properties, q.fieldName = "grid" ∧ q.type.base = .scalar "Int" "i32" := by decide
  have hlayers : ∀ q ∈ gridShape.properties, ∀ f, grids.KeepsLayers c.type.fields f q →
      Emission.HasLayers q.type (if f.conditional then gridType.nullable else gridType) := by
    rintro q hq f ⟨-, hname, g, hg, hproper⟩
    have hdeclared : g = ⟨"grid", gridType, none⟩ := by
      rw [declaration?, hquery, ← hname, (hgrid q hq).1, if_neg (by decide)] at hg
      exact (Option.some.inj hg).symm
    subst hdeclared
    exact hproper (by decide : gridType.Proper)
  refine ⟨collected, fs, docs, name, ?_, hitem, ?_⟩
  · refine (forall₂_imp_mem hall.flip fun q hq f h => ⟨h.1, ?_⟩).flip
    rw [(hlayers q hq f h).written, (hgrid q hq).2]
    split <;> decide
  · refine forall₂_imp_mem hfs fun q hq e he => ?_
    obtain ⟨f, -, h⟩ := exists_of_forall₂_right hall hq
    obtain ⟨base, hbase, hdeclares⟩ := (hlayers q hq f h).declared [gridShape] e he
    have htext : base.layout.flat = "i32" := by
      rw [(hgrid q hq).2] at hbase
      exact flat_baseType_int hbase
    have hconditional : f.conditional = decide (q.name = "some") := by
      have hwritten := (hlayers q hq f h).written
      rw [(hgrid q hq).2] at hwritten
      revert hwritten
      fin_cases hq <;> cases f.conditional <;> decide
    rw [htext, hconditional] at hdeclares
    revert hdeclares
    fin_cases hq <;> exact id

end Schema

end TypedQuery
