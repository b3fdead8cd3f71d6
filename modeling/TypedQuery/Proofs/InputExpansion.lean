/-
Input expansion is complete and minimal. From the types of the variables, the
fields of input objects lead to further types: those that are reached. If all
of them are inputs nothing can fail, since a name that a shape has is that of
an enum or an input object reached before (`allowsInputs_reached`). After a
success the fields of each registered input object have been followed to the
end (`reached_base`), so what is registered is what is reached
(`variables_expand`).
-/
import Mathlib
import TypedQuery.Proofs.Naming
import TypedQuery.Proofs.Nullability
import TypedQuery.Proofs.Termination
import TypedQuery.Proofs.Variables

namespace TypedQuery

open Generator

namespace TypeRef

theorem withBase_baseName (t : TypeRef) : t.withBase t.baseName = t := by
  induction t with
  | named n => rfl
  | list e ih => rw [baseName, withBase, ih]
  | nonNull t ih => rw [baseName, withBase, ih]

end TypeRef

namespace Schema

/-- The type named `n` is reached from that of a variable through the fields of input objects. -/
def InputReached (s : Schema) (parameters : List VariableDefinition) (n : String) : Prop :=
  ∃ v ∈ parameters, Relation.ReflTransGen s.InputField v.type.baseName n

/-- `n` is defined, and clients can send values of it. -/
def IsInput (s : Schema) (n : String) : Prop :=
  ∃ d, s.find? n = some d ∧ (d.kind = .scalar ∨ d.kind = .enumeration ∨ d.kind = .inputObject)

/-- The property `q` is the one of the input field `f`: it has its name and its description, it refers to what is
registered for its type, and it is written with the same layers. -/
def MirrorsField (s : Schema) (r : Registry) (f : FieldDefinition) (q : Property) : Prop :=
  s.IsInputProperty r [] f q ∧ (f.type.Proper → q.type.render = f.type.render)

/-- The registry holds the enums and the input objects whose names are in `R` and nothing else, each once and under
its own name, an input object with the properties of all its fields in their order. -/
structure HoldsExactly (s : Schema) (R : String → Prop) (r : Registry) : Prop where
  nodup : r.names.Nodup
  names : ∀ n, n ∈ r.names ↔ R n ∧ ∃ d, s.find? n = some d ∧ (d.kind = .enumeration ∨ d.kind = .inputObject)
  enumeration : ∀ n d, R n → s.find? n = some (.enumeration d) → r.lookup? n = some d.shape
  input : ∀ n d, R n → s.find? n = some (.input d) →
    ∃ qs, r.lookup? n = some ⟨n, n, .inputObject, d.description?, qs⟩ ∧
      List.Forall₂ (s.MirrorsField r) d.fields qs

/-- The variables' properties, where `deep` resolves the inputs that are `n` calls deep. -/
def variablePropertiesUpTo (s : Schema) (deep : InputResolver) (n : Nat) (parameters : List VariableDefinition) :
    Generator (List Property) :=
  parameters.mapM fun v => do
    let t ← s.inputTypeUpTo deep n v.type (.variable v.name)
    return ⟨v.name, v.name, if v.hasDefault then t.intoNullable else t, none⟩

variable {s : Schema} {parameters : List VariableDefinition} {r : Registry}

/-! ## What fails, and what is registered -/

/-- The shape of an enum or of an input object whose name is in `R`. -/
inductive InputShape (s : Schema) (R : String → Prop) : Shape → Prop
  | enumeration {d} (h : s.find? d.name = some (.enumeration d)) (hR : R d.name) : InputShape s R d.shape
  | input {t d} (h : s.find? t.name = some (.input d)) (hR : R t.name) (hkind : t.kind = .inputObject) :
    InputShape s R t

/-- While inputs are resolved, only shapes of reached inputs are registered. -/
def ReachedOnly (s : Schema) (R : String → Prop) (p : Progress) : Prop :=
  (∀ t ∈ p.registry.shapes, s.InputShape R t) ∧ s.Entered p

theorem InputShape.isOutput {R : String → Prop} {t : Shape} (h : s.InputShape R t) : t.kind.isOutput = false := by
  cases h with
  | enumeration h hR => rfl
  | input h hR hkind => rw [hkind, ShapeKind.isOutput]

/-- No other shape has the name of an enum. -/
theorem InputShape.eq_shape {R : String → Prop} {t : Shape} (h : s.InputShape R t) {d : EnumDefinition}
    (hd : s.find? d.name = some (.enumeration d)) (hname : t.name = d.name) : t = d.shape := by
  cases h with
  | @enumeration d' h hR =>
    have hd' : s.find? d'.name = some (.enumeration d) := (congrArg s.find? hname).trans hd
    rw [h] at hd'
    cases hd'
    rfl
  | input h hR hkind =>
    rw [hname, hd] at h
    cases h

/-- Resolving reached inputs fails only if a type is reached that is no input. -/
theorem allowsInputs_reached (s : Schema) (parameters : List VariableDefinition) :
    s.AllowsInputsIn (s.InputReached parameters) (s.ReachedOnly (s.InputReached parameters))
      (fun _ => ∃ n, s.InputReached parameters n ∧ ¬ s.IsInput n) where
  field := by
    rintro d f hd ⟨v, hv, hreached⟩ hf
    exact ⟨v, hv, hreached.tail ⟨d, f, hd, hf, rfl⟩⟩
  undefined := by
    rintro n hn hnone
    refine ⟨n, hn, ?_⟩
    rintro ⟨d, hd, -⟩
    cases hnone.symm.trans hd
  composite := by
    rintro t ht hn hcomposite position
    refine ⟨t.name, hn, ?_⟩
    rintro ⟨d, hd, hkind⟩
    obtain rfl := Option.some.inj (ht.symm.trans hd)
    cases t with
    | object | interface | union => simp [TypeDefinition.kind] at hkind
    | scalar | enumeration | input => cases hcomposite
  enumeration := by
    rintro d hd hn p ⟨hshapes, hentered⟩
    refine ends_register_some (fun t ht hne => ?_) fun r hk =>
      ⟨hk.all hshapes (.enumeration hd hn), hentered.keeps hk (hentered.enumeration hd)⟩
    exact absurd ((hshapes t (Registry.mem_of_lookup? ht)).eq_shape hd (Registry.lookup?_name ht)) hne
  enter := fun _ _ hd hnames hp => ⟨hp.1, hp.2.enter hd hnames⟩
  input := by
    rintro d p q qs hd hR hn ⟨hshapes, hentered⟩ hexp
    obtain ⟨hfree, hback⟩ := hentered.leave hexp
    refine ends_register_some (fun t ht _ => absurd (mem_names_of_lookup? ht) hfree) fun r hk => ?_
    exact ⟨hk.all hshapes (.input hd hR rfl), hback.keeps hk hn⟩

theorem variableProperties_ends (s : Schema) (parameters : List VariableDefinition) :
    Ends (fun _ => ∃ n, s.InputReached parameters n ∧ ¬ s.IsInput n) (s.variableProperties parameters)
      (s.ReachedOnly (s.InputReached parameters)) .start :=
  variableProperties_leads_in (allowsInputs_reached s parameters) (fun v hv => ⟨v, hv, .refl⟩) _
    ⟨by simp [Progress.start, Registry.empty], by simp [Entered, Progress.start]⟩

/-! ## Completeness -/

theorem InputBase.name {pending : List String} {type : String} {base : BaseType}
    (h : s.InputBase r pending type base) : base.name = type := by
  cases h with
  | scalar h | enumeration h _ | input h _ => exact find?_name h

theorem IsInputProperty.mirrorsField {f : FieldDefinition} {q : Property} (h : s.IsInputProperty r [] f q) :
    s.MirrorsField r f q := by
  refine ⟨h, fun hproper => ?_⟩
  obtain ⟨base, rfl, hbase⟩ := h
  rw [PropertyType.render_ofTypeRef hproper, hbase.name, TypeRef.withBase_baseName]

theorem InputBase.isInput {pending : List String} {n : String} {base : BaseType}
    (h : s.InputBase r pending n base) : s.IsInput n := by
  cases h with
  | scalar h => exact ⟨_, h, .inl rfl⟩
  | enumeration h _ => exact ⟨_, h, .inr (.inl rfl)⟩
  | input h _ => exact ⟨_, h, .inr (.inr rfl)⟩

theorem InputBase.mem_names_of_kind {n : String} {base : BaseType} (h : s.InputBase r [] n base) {d : TypeDefinition}
    (hd : s.find? n = some d) (hkind : d.kind = .enumeration ∨ d.kind = .inputObject) : n ∈ r.names := by
  cases h with
  | scalar h =>
    obtain rfl := Option.some.inj (hd.symm.trans h)
    simp [TypeDefinition.kind] at hkind
  | enumeration h hl => exact find?_name h ▸ mem_names_of_lookup? hl
  | input h hmem => exact find?_name h ▸ hmem.resolve_right (by simp)

/-- Without output shapes, a base for the type of an input leads to bases for all types that are reached from it. -/
theorem reached_base (hr : r.Sound s []) (hinputs : ∀ t ∈ r.shapes, t.kind.isOutput = false) {type n : String}
    (hn : Relation.ReflTransGen s.InputField type n) {base : BaseType} (hbase : s.InputBase r [] type base) :
    ∃ base, s.InputBase r [] n base := by
  induction hn with
  | refl => exact ⟨base, hbase⟩
  | tail _ hab ih =>
    obtain ⟨base', hbase'⟩ := ih
    obtain ⟨d, f, hd, hf, rfl⟩ := hab
    have hnames := hbase'.mem_names_of_kind hd (.inr rfl)
    obtain ⟨qs, -, hall⟩ := input_of_mem_names hr hd hnames fun t ht => hinputs t (Registry.mem_of_lookup? ht)
    obtain ⟨q, -, base, -, hq⟩ := exists_of_forall₂_left hall hf
    exact ⟨base, hq⟩

/-- A sound registry of reached inputs that leads to all of them holds exactly the enums and input objects. -/
theorem holdsExactly {R : String → Prop} (hr : r.Sound s []) (honly : ∀ t ∈ r.shapes, s.InputShape R t)
    (hall : ∀ n, R n → ∃ base, s.InputBase r [] n base) : s.HoldsExactly R r where
  nodup := hr.nodup
  names n := by
    constructor
    · intro hn
      obtain ⟨t, ht⟩ := Option.isSome_iff_exists.1 (Registry.contains_iff.2 hn)
      obtain rfl := Registry.lookup?_name ht
      cases honly t (Registry.mem_of_lookup? ht) with
      | enumeration h hR => exact ⟨hR, _, h, .inl rfl⟩
      | input h hR _ => exact ⟨hR, _, h, .inr rfl⟩
    · rintro ⟨hR, d, hd, hkind⟩
      obtain ⟨base, hbase⟩ := hall n hR
      exact hbase.mem_names_of_kind hd hkind
  enumeration n d hR hd := by
    obtain ⟨base, hbase⟩ := hall n hR
    cases hbase with
    | enumeration h hl =>
      cases hd.symm.trans h
      exact find?_name h ▸ hl
    | scalar h | input h _ => cases hd.symm.trans h
  input n d hR hd := by
    obtain ⟨base, hbase⟩ := hall n hR
    have hfree : ∀ t, r.lookup? n = some t → t.kind.isOutput = false :=
      fun t ht => (honly t (Registry.mem_of_lookup? ht)).isOutput
    obtain ⟨qs, hl, hfields⟩ := input_of_mem_names hr hd (hbase.mem_names_of_kind hd (.inr rfl)) hfree
    exact ⟨qs, hl, hfields.imp fun _ _ hq => hq.mirrorsField⟩

/-- After a success every type that is reached has a base. -/
theorem variableProperties_reached {qs : List Property} {p : Progress}
    (h : Runs (s.variableProperties parameters) .start qs p) :
    (∀ n, s.InputReached parameters n → ∃ base, s.InputBase p.registry [] n base) ∧
      s.HoldsExactly (s.InputReached parameters) p.registry := by
  obtain ⟨hsound, hg, hall⟩ := variableProperties_sound s.keptSound_start.1 rfl h
  have hr : p.registry.Sound s [] := by
    unfold KeptSound at hsound
    rwa [hg.expanding] at hsound
  have honly := ((variableProperties_ends s parameters).2 qs p h).1
  have hbase : ∀ n, s.InputReached parameters n → ∃ base, s.InputBase p.registry [] n base := by
    rintro n ⟨v, hv, hn⟩
    obtain ⟨q, -, -, hq⟩ := exists_of_forall₂_left hall hv
    exact reached_base hr (fun t ht => (honly t ht).isOutput) hn hq
  exact ⟨hbase, holdsExactly hr honly hbase⟩

/-- **Input expansion is complete and minimal.** On an empty registry, calls are no deeper than there are input
objects, whatever deeper ones would do; they succeed if and only if all types that are reached are inputs; then the
registry holds exactly the enums and the input objects among them; and in any case no input object is left marked as
being expanded. -/
theorem variables_expand (s : Schema) (parameters : List VariableDefinition) :
    (∀ deep more, s.variablePropertiesUpTo deep ((s.inputsOutside []).length + 1 + more) parameters =
      s.variableProperties parameters) ∧
    ((∃ qs p, Runs (s.variableProperties parameters) .start qs p) ↔ ∀ n, s.InputReached parameters n → s.IsInput n) ∧
    (∀ qs p, Runs (s.variableProperties parameters) .start qs p →
      s.HoldsExactly (s.InputReached parameters) p.registry) ∧
    (outcome (s.variableProperties parameters) .start).2.expanding = [] := by
  refine ⟨fun deep more => ?_, ⟨?_, fun hall => ?_⟩, fun qs p h => (variableProperties_reached h).2, ?_⟩
  · rw [variablePropertiesUpTo, inputTypeUpTo_eq (by omega), variableProperties]
  · rintro ⟨qs, p, h⟩ n hn
    obtain ⟨base, hbase⟩ := (variableProperties_reached h).1 n hn
    exact hbase.isInput
  · rcases h : outcome (s.variableProperties parameters) .start with ⟨e | qs, p⟩
    · obtain ⟨n, hn, hbad⟩ := (variableProperties_ends s parameters).1 e p h
      exact absurd (hall n hn) hbad
    · exact ⟨qs, p, h⟩
  · exact (variableProperties_grows parameters .start).expanding

end Schema

end TypedQuery
