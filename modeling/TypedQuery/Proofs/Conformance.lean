/-
What the host program accepts of a response. A property that is nullable may
be `null` or absent, and no key is accepted that is not a property. A shape
with variants accepts what the variant of the response's `__typename` does.

A response to a type conforms to the property type made from a type that it
may stand for (`conforms_ofTypeRef`), provided that its innermost values
conform to the base.
-/
import TypedQuery.Proofs.Execution
import TypedQuery.Proofs.Integrity

namespace TypedQuery

mutual

/-- The value is one of the property type. -/
inductive Conforms (r : Registry) : PropertyType → Response → Prop
  | null {t} (h : PropertyType.isNullable t = true) : Conforms r t .null
  | list {t nullable items} (h : ∀ v ∈ items, Conforms r t v) : Conforms r (.list t nullable) (.list items)
  | scalar {name host nullable x} : Conforms r (.named (.scalar name host) nullable) (.leaf name x)
  | shape {n nullable shape v} (hl : r.lookup? n = some shape) (h : ShapeConforms r shape v) :
    Conforms r (.named (.generated n) nullable) v

/-- The value is one of the shape. -/
inductive ShapeConforms (r : Registry) : Shape → Response → Prop
  | enumeration {shape values x} (hk : Shape.kind shape = .enumeration values) (hx : x ∈ values.map (·.name)) :
    ShapeConforms r shape (.leaf shape.schemaType x)
  | properties {shape fields} (hk : (Shape.kind shape).isOutput = true) (hv : shape.variants = [])
    (hkeys : ∀ f ∈ fields, f.1 ∈ shape.properties.map (·.name))
    (hvalues : ∀ q ∈ shape.properties, ∀ f ∈ fields, f.1 = q.name → Conforms r q.type f.2)
    (hmissing : ∀ q ∈ shape.properties, q.name ∉ fields.map (·.1) → q.type.isNullable = true) :
    ShapeConforms r shape (.object fields)
  | variant {shape v shape' fields} (hv : v ∈ Shape.variants shape)
    (ht : (typenameField.name, .leaf "String" v.typename) ∈ fields) (hl : r.lookup? v.shapeName = some shape')
    (h : ShapeConforms r shape' (.object fields)) : ShapeConforms r shape (.object fields)

end

theorem isNullable_intoNullable (t : PropertyType) : t.intoNullable.isNullable = true := by
  cases t <;> rfl

theorem Conforms.intoNullable {r : Registry} {t : PropertyType} {v : Response} (h : Conforms r t v) :
    Conforms r t.intoNullable v := by
  cases h with
  | null => exact .null (isNullable_intoNullable t)
  | list h => exact .list h
  | scalar => exact .scalar
  | shape hl h => exact .shape hl h

/-- Layers of lists and non-null marks: if what is not null in the innermost type conforms to the
base, so does the whole. -/
theorem conforms_ofLayers {r : Registry} {d : Document} {s : Schema} {selections : List Selection}
    {base : BaseType} : ∀ {a b : TypeRef} {nullable : Bool} {v : Response},
      (∀ v nullable, v ≠ .null → d.Answers s (.named a.baseName) selections v →
        Conforms r (.named base nullable) v) →
      a.refines b = true → d.Answers s a selections v → (v = .null → nullable = true) →
      Conforms r (.ofLayers base nullable b) v
  | .named a, .named b, nullable, v, hbase, _, hv, hnull => by
    by_cases hne : v = .null
    · subst hne
      exact .null (hnull rfl)
    · exact hbase v nullable hne hv
  | .list a, .list b, nullable, v, hbase, hab, hv, hnull => by
    cases hv with
    | null => exact .null (hnull rfl)
    | list h => exact .list fun v hv => conforms_ofLayers (a := a) (b := b) hbase hab (h v hv) fun _ => rfl
  | .nonNull a, .nonNull b, nullable, v, hbase, hab, hv, _ => by
    cases hv with
    | null h => cases h
    | nonNull hne hv => exact conforms_ofLayers (a := a) (b := b) hbase hab hv fun he => absurd he hne
  | .nonNull a, .named b, nullable, v, hbase, hab, hv, hnull => by
    cases hv with
    | null h => cases h
    | nonNull hne hv => exact conforms_ofLayers (a := a) (b := .named b) hbase hab hv hnull
  | .nonNull a, .list b, nullable, v, hbase, hab, hv, hnull => by
    cases hv with
    | null h => cases h
    | nonNull hne hv => exact conforms_ofLayers (a := a) (b := .list b) hbase hab hv hnull
  | .named _, .list _, _, _, _, hab, _, _ => nomatch hab
  | .named _, .nonNull _, _, _, _, hab, _, _ => nomatch hab
  | .list _, .named _, _, _, _, hab, _, _ => nomatch hab
  | .list _, .nonNull _, _, _, _, hab, _, _ => nomatch hab

theorem conforms_ofTypeRef {r : Registry} {d : Document} {s : Schema} {selections : List Selection}
    {base : BaseType} {a b : TypeRef} {v : Response}
    (hbase : ∀ v nullable, v ≠ .null → d.Answers s (.named a.baseName) selections v →
      Conforms r (.named base nullable) v)
    (hab : a.refines b = true) (hv : d.Answers s a selections v) : Conforms r (.ofTypeRef b base) v :=
  conforms_ofLayers hbase hab hv fun _ => rfl

/-- What an object answers: the fields kept for its run-time type. -/
structure Document.ObjectAnswers (d : Document) (s : Schema) (R : String) (kept : List KeptField)
    (fields : List (String × Response)) : Prop where
  keys : ∀ key, key ∈ fields.map (·.1) ↔ key ∈ kept.map (·.key)
  typename : ∀ f ∈ fields, ∀ k, kept.find? (·.key = f.1) = some k → k.name = typenameField.name →
    f.2 = .leaf "String" R
  values : ∀ f ∈ fields, ∀ k, kept.find? (·.key = f.1) = some k → ∀ g, s.fieldOn? R k.name = some g →
    d.Answers s g.type (KeptField.below kept f.1) f.2

/-- Where `a` may stand for `b`, a value of `a`'s innermost type that is not null is a leaf of `b`'s,
or an object of a run-time type of both. -/
theorem Document.Answers.base_cases {d : Document} {s : Schema} {a b : TypeRef} {selections : List Selection}
    {v : Response} (h : d.Answers s (.named a.baseName) selections v) (hne : v ≠ .null)
    (hab : s.Covariant a b) :
    (∃ x sd, s.find? b.baseName = some (.scalar sd) ∧ v = .leaf b.baseName x) ∨
    (∃ x ed, s.find? b.baseName = some (.enumeration ed) ∧ x ∈ ed.values.map (·.name) ∧
      v = .leaf b.baseName x) ∨
    ∃ R kept fields, R ∈ s.possibleTypes a.baseName ∧ R ∈ s.possibleTypes b.baseName ∧
      d.Collects s R selections kept ∧ d.ObjectAnswers s R kept fields ∧ v = .object fields := by
  cases h with
  | null => exact absurd rfl hne
  | @scalar _ _ sd x hs =>
    have hname := hab.leaf (Schema.isLeaf_of_scalar hs)
    exact .inl ⟨x, sd, hname ▸ hs, by rw [hname]⟩
  | @enumeration _ _ ed x hs hx =>
    have hname := hab.leaf (Schema.isLeaf_of_enumeration hs)
    exact .inr (.inl ⟨x, ed, hname ▸ hs, hx, by rw [hname]⟩)
  | @object _ R _ kept fields hR hkept hdistinct hkeys htypename hvalues =>
    exact .inr (.inr ⟨R, kept, fields, hR, hab.composite (Schema.isLeaf_of_mem_possibleTypes hR) R hR, hkept,
      ⟨hkeys, htypename, hvalues⟩, rfl⟩)

end TypedQuery
