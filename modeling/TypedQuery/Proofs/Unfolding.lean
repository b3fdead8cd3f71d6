/-
What the name of a shape stands for. The unfolding of a shape is the shape
with each name in it replaced by the unfolding of the shape of that name: a
finite tree, since an output shape refers to earlier shapes only. `Built`
says besides that each name in the tree is the one that the search for a name
finds for its shape, or the name of an enum. Searching again finds the same,
so a tree is built under one name only (`Built.name_eq`): by induction over
the tree, equal trees have equal names in them, so they are made of the same
shape, for which there is one name.
-/
import TypedQuery.Proofs.GeneratorRuns

namespace TypedQuery

/-! ## Shapes without names -/

/-- A base without the name of the shape it refers to. -/
def BaseType.outline : BaseType → BaseType
  | scalar n h => scalar n h
  | generated _ => generated ""

/-- The shape to which a base refers, if it is not a scalar. -/
def BaseType.references : BaseType → List String
  | scalar _ _ => []
  | generated n => [n]

def PropertyType.outline : PropertyType → PropertyType
  | named b nullable => named b.outline nullable
  | list e nullable => list e.outline nullable

def Property.outline (q : Property) : Property := { q with type := q.type.outline }

def Variant.outline (v : Variant) : Variant := { v with shapeName := "" }

def ShapeKind.outline : ShapeKind → ShapeKind
  | .interface vs => .interface (vs.map Variant.outline)
  | .union vs => .union (vs.map Variant.outline)
  | kind => kind

namespace Shape

/-- The shape without its name and the names of those to which it refers. -/
def outline (s : Shape) : Shape :=
  { s with name := "", kind := s.kind.outline, properties := s.properties.map Property.outline }

/-- The names of the shapes to which a shape refers, in order. -/
def references (s : Shape) : List String :=
  s.properties.flatMap (·.type.base.references) ++ s.variants.map (·.shapeName)

end Shape

theorem BaseType.length_references {b c : BaseType} (h : b.outline = c.outline) :
    b.references.length = c.references.length := by
  cases b <;> cases c <;> simp_all [outline, references]

theorem BaseType.eq_of_outline {b c : BaseType} (h : b.outline = c.outline) (hr : b.references = c.references) :
    b = c := by
  cases b <;> cases c <;> simp_all [outline, references]

theorem PropertyType.base_outline (t : PropertyType) : t.outline.base = t.base.outline := by
  induction t with
  | named => rfl
  | list _ _ ih => exact ih

theorem PropertyType.eq_of_outline {t u : PropertyType} (h : t.outline = u.outline)
    (hr : t.base.references = u.base.references) : t = u := by
  induction t generalizing u with
  | named b nullable =>
    cases u with
    | named c nullable' =>
      simp only [outline, named.injEq] at h
      rw [BaseType.eq_of_outline h.1 hr, h.2]
    | list => cases h
  | list e nullable ih =>
    cases u with
    | named => cases h
    | list e' nullable' =>
      simp only [outline, list.injEq] at h
      rw [ih h.1 hr, h.2]

theorem Property.eq_of_outline {q q' : Property} (h : q.outline = q'.outline)
    (hr : q.type.base.references = q'.type.base.references) : q = q' := by
  obtain ⟨name, fieldName, type, description?⟩ := q
  obtain ⟨name', fieldName', type', description?'⟩ := q'
  simp only [outline, Property.mk.injEq] at h
  obtain ⟨rfl, rfl, htype, rfl⟩ := h
  rw [PropertyType.eq_of_outline htype hr]

theorem Property.length_references {q q' : Property} (h : q.outline = q'.outline) :
    q.type.base.references.length = q'.type.base.references.length := by
  have htype : q.type.outline = q'.type.outline := congrArg Property.type h
  refine BaseType.length_references ?_
  rw [← PropertyType.base_outline, htype, PropertyType.base_outline]

/-- Properties with names filled in are determined by the rest and the names in order. -/
theorem properties_eq_of_outline : ∀ {qs qs' : List Property}, qs.map Property.outline = qs'.map Property.outline →
    ∀ {more more' : List String}, qs.flatMap (·.type.base.references) ++ more =
      qs'.flatMap (·.type.base.references) ++ more' → qs = qs' ∧ more = more'
  | [], [], _, _, _, hr => ⟨rfl, by simpa using hr⟩
  | [], _ :: _, h, _, _, _ => by simp at h
  | _ :: _, [], h, _, _, _ => by simp at h
  | q :: qs, q' :: qs', h, more, more', hr => by
    obtain ⟨hq, hqs⟩ := List.cons.inj h
    simp only [List.flatMap_cons, List.append_assoc] at hr
    obtain ⟨hhead, htail⟩ := List.append_inj hr (Property.length_references hq)
    obtain ⟨rfl, hmore⟩ := properties_eq_of_outline hqs htail
    exact ⟨by rw [Property.eq_of_outline hq hhead], hmore⟩

theorem variants_eq_of_outline : ∀ {vs vs' : List Variant}, vs.map Variant.outline = vs'.map Variant.outline →
    vs.map (·.shapeName) = vs'.map (·.shapeName) → vs = vs'
  | [], [], _, _ => rfl
  | [], _ :: _, h, _ => by simp at h
  | _ :: _, [], h, _ => by simp at h
  | ⟨t, n⟩ :: vs, ⟨t', n'⟩ :: vs', h, hn => by
    obtain ⟨hv, hvs⟩ := List.cons.inj h
    obtain ⟨hname, hnames⟩ := List.cons.inj hn
    have htype : t = t' := congrArg Variant.typename hv
    rw [variants_eq_of_outline hvs hnames, htype, show n = n' from hname]

/-- A shape is its name, its outline and the names of those to which it refers. -/
theorem Shape.eq_of_outline {s t : Shape} (h : s.outline = t.outline) (hr : s.references = t.references)
    (name : String) : ({ s with name := name } : Shape) = { t with name := name } := by
  obtain ⟨n, schemaType, kind, description?, properties⟩ := s
  obtain ⟨n', schemaType', kind', description?', properties'⟩ := t
  simp only [outline, Shape.mk.injEq, true_and] at h
  obtain ⟨rfl, hkind, rfl, hproperties⟩ := h
  obtain ⟨rfl, hvariants⟩ := properties_eq_of_outline hproperties hr
  have hkinds : kind = kind' := by
    cases kind <;> cases kind' <;> simp_all [ShapeKind.outline, Shape.variants]
    · exact variants_eq_of_outline hkind hvariants
    · exact variants_eq_of_outline hkind hvariants
  rw [hkinds]

/-! ## Unfoldings -/

/-- Two lists related to a third are the same if what is related to the same element is the same. -/
theorem forall₂_eq {α β : Type} {R S : α → β → Prop} {as : List α} {bs cs : List β} (h : List.Forall₂ R as bs)
    (h' : List.Forall₂ S as cs) (heq : ∀ a ∈ as, ∀ b ∈ bs, ∀ c, R a b → S a c → b = c) : bs = cs := by
  induction h generalizing cs with
  | nil =>
    cases h'
    rfl
  | cons hab _ ih =>
    cases h' with
    | cons hac h' =>
      rw [heq _ List.mem_cons_self _ List.mem_cons_self _ hab hac, ih h' fun a ha b hb =>
        heq a (List.mem_cons_of_mem _ ha) b (List.mem_cons_of_mem _ hb)]

theorem forall₂_imp_mem_right {α β : Type} {R S : α → β → Prop} {as : List α} {bs : List β}
    (h : List.Forall₂ R as bs) (himp : ∀ b ∈ bs, ∀ a, R a b → S a b) : List.Forall₂ S as bs :=
  (forall₂_imp_mem h.flip himp).flip

/-- A shape without names, and in the place of each name in it, in order, what the name stands for. -/
inductive Unfolding
  | node (outline : Shape) (parts : List Unfolding)

/-- What holds of a tree if it holds of its parts holds of every tree. -/
theorem Unfolding.induct {P : Unfolding → Prop}
    (node : ∀ outline parts, (∀ u ∈ parts, P u) → P (.node outline parts)) : ∀ u, P u
  | .node outline parts => node outline parts fun u _ => Unfolding.induct node u

namespace Registry

/-- The tree that a name stands for. -/
inductive Unfolds (r : Registry) : String → Unfolding → Prop
  | node {n t parts} (h : r.lookup? n = some t) (hparts : List.Forall₂ (Unfolds r) t.references parts) :
    Unfolds r n (.node t.outline parts)

/-- The shape `t` of an enum has the name of its type, another the one that is found for it. -/
def Found (r : Registry) (t : Shape) : Prop :=
  match t.kind with
  | .enumeration _ => t.name = t.schemaType
  | _ => r.nameFor { t with name := t.schemaType } = t.name

/-- The tree that a name stands for, with the names in it found for what they stand for. -/
inductive Built (r : Registry) : String → Unfolding → Prop
  | node {n t parts} (h : r.lookup? n = some t) (hname : r.Found t)
    (hparts : List.Forall₂ (Built r) t.references parts) : Built r n (.node t.outline parts)

section Unfolds

variable {r r' : Registry} {n m : String} {u v : Unfolding}

/-- A name stands for one tree. -/
theorem Unfolds.unique (h : r.Unfolds n u) (h' : r.Unfolds n v) : u = v := by
  induction u using Unfolding.induct generalizing n v with
  | node outline parts ih =>
    cases h with
    | node ht hparts =>
      cases h' with
      | node ht' hparts' =>
        obtain rfl := Option.some.inj (ht.symm.trans ht')
        rw [forall₂_eq hparts hparts' fun a _ w hw _ ha ha' => ih w hw ha ha']

theorem Built.unfolds (h : r.Built n u) : r.Unfolds n u := by
  induction u using Unfolding.induct generalizing n with
  | node outline parts ih =>
    cases h with
    | node ht _ hparts => exact .node ht (forall₂_imp_mem_right hparts fun w hw a ha => ih w hw ha)

/-- The name of a shape is still found for it when more shapes are registered. -/
theorem Found.extends {t : Shape} (h : r.Found t) (ht : r.lookup? t.name = some t) (hext : r'.Extends r) :
    r'.Found t := by
  unfold Found at h ⊢
  split
  next hkind => simpa only [hkind] using h
  next hkind =>
    have hname : r.nameFor { t with name := t.schemaType } = t.name := by
      split at h
      next vs hvs => exact absurd hvs (hkind vs)
      next => exact h
    rw [nameFor_of_extends hext, hname]
    rw [hname]
    exact hext.lookup? ht

theorem Built.extends (h : r.Built n u) (hext : r'.Extends r) : r'.Built n u := by
  induction u using Unfolding.induct generalizing n with
  | node outline parts ih =>
    cases h with
    | node ht hfound hparts =>
      refine .node (hext.lookup? ht) (hfound.extends ?_ hext) (forall₂_imp_mem_right hparts fun w hw a ha => ih w hw ha)
      rwa [lookup?_name ht]

/-- Shapes that differ in their names at most, and are found under both, have one name. -/
theorem Found.name_eq {t t' : Shape} (h : r.Found t) (h' : r.Found t') (houtline : t.outline = t'.outline)
    (hreferences : t.references = t'.references) : t.name = t'.name := by
  obtain ⟨name, schemaType, kind, description?, properties⟩ := t
  obtain ⟨name', schemaType', kind', description?', properties'⟩ := t'
  have hsame := Shape.eq_of_outline houtline hreferences ""
  simp only [Shape.mk.injEq, true_and] at hsame
  obtain ⟨rfl, rfl, rfl, rfl⟩ := hsame
  unfold Found at h h'
  cases kind with
  | enumeration => exact Eq.trans h h'.symm
  | object | interface | union | inputObject => exact Eq.trans h.symm h'

/-- **A tree is built under one name.** -/
theorem Built.name_eq (h : r.Built n u) (h' : r.Built m u) : n = m := by
  induction u using Unfolding.induct generalizing n m with
  | node outline parts ih =>
    generalize hnode : Unfolding.node outline parts = u at h'
    cases h with
    | @node _ t _ ht hfound hparts =>
      cases h' with
      | @node _ t' parts' ht' hfound' hparts' =>
        obtain ⟨houtline, rfl⟩ := Unfolding.node.inj hnode
        have hreferences : t.references = t'.references :=
          forall₂_eq hparts.flip hparts'.flip fun w hw _ _ _ ha ha' => ih w hw ha ha'
        rw [← lookup?_name ht, ← lookup?_name ht']
        exact hfound.name_eq hfound' houtline hreferences

end Unfolds

end Registry

end TypedQuery
