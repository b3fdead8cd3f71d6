/-
The types that variables get. An input object that is registered is referred
to by its name alone, and an output shape may have that name: then a variable
leads to the output shape. `variables_resolve_iff` says that this is the only
way in which a variable, or an input field below it, can go wrong; enums
never do, since theirs is the one name a shape must have.
-/
import Mathlib
import TypedQuery.Proofs.Integrity

namespace TypedQuery

open Generator

namespace Schema

/-- The input object `a` has a field of the type named `b`. -/
def InputField (s : Schema) (a b : String) : Prop :=
  ∃ d f, s.find? a = some (.input d) ∧ f ∈ d.fields ∧ f.type.baseName = b

/-- If `type` is of an enum or an input object, the property refers to it, and what it refers to is
registered for that type and of its kind. -/
def PropertyResolves (s : Schema) (r : Registry) (type : TypeRef) (q : Property) : Prop :=
  ∀ d, s.find? type.baseName = some d → d.kind = .enumeration ∨ d.kind = .inputObject →
    q.type.base = .generated type.baseName ∧ s.Resolves r type.baseName type.baseName

/-- A variable resolves, and so does every field of every input object reached from it. -/
def VariableResolves (s : Schema) (r : Registry) (v : VariableDefinition) (q : Property) : Prop :=
  s.PropertyResolves r v.type q ∧
    ∀ E d, Relation.ReflTransGen s.InputField v.type.baseName E → s.find? E = some (.input d) →
      ∃ t, r.lookup? E = some t ∧
        List.Forall₂ (fun f q => q.name = f.name ∧ s.PropertyResolves r f.type q) d.fields t.properties

/-- No output shape has the name of an input object reached from `type`. -/
def NamesFree (s : Schema) (r : Registry) (type : String) : Prop :=
  ∀ E d, Relation.ReflTransGen s.InputField type E → s.find? E = some (.input d) →
    ∀ t, r.lookup? E = some t → t.kind.isOutput = false

section NamesFree

variable {s : Schema} {r : Registry}

theorem NamesFree.field {a b : String} (h : s.NamesFree r a) (hab : s.InputField a b) : s.NamesFree r b :=
  fun E d hE => h E d (.head hab hE)

/-- An input object whose name no output shape has is registered as itself. -/
theorem input_of_mem_names (hr : r.Sound s []) {E : String} {d : InputDefinition}
    (hd : s.find? E = some (.input d)) (hE : E ∈ r.names)
    (hfree : ∀ t, r.lookup? E = some t → t.kind.isOutput = false) :
    ∃ qs, r.lookup? E = some ⟨E, E, .inputObject, d.description?, qs⟩ ∧
      List.Forall₂ (s.IsInputProperty r []) d.fields qs := by
  obtain ⟨t, ht⟩ := Option.isSome_iff_exists.1 (Registry.contains_iff.2 hE)
  have hname := Registry.lookup?_name ht
  cases hr.input t (Registry.mem_of_lookup? ht) (hfree t ht) with
  | enumeration he =>
    obtain rfl : _ = E := hname
    cases hd.symm.trans he
  | @input d' qs hd' hf =>
    obtain rfl : d'.name = E := hname
    obtain rfl : d = d' := by simpa using hd.symm.trans hd'
    exact ⟨qs, ht, hf⟩

/-- What a base refers to has the type it was made for. -/
theorem InputBase.resolves (hr : r.Sound s []) {type : TypeRef} {q : Property}
    (h : s.InputBase r [] type.baseName q.type.base) (hfree : s.NamesFree r type.baseName) :
    s.PropertyResolves r type q := by
  intro d hd hkind
  generalize hb : q.type.base = base at h
  cases h with
  | scalar hs =>
    obtain rfl := Option.some.inj (hd.symm.trans hs)
    simp [TypeDefinition.kind] at hkind
  | @enumeration e he hl =>
    have hname : e.name = type.baseName := find?_name he
    exact ⟨hname ▸ rfl, _, _, hname ▸ hl, hname, he, rfl⟩
  | @input e he hn =>
    have hname : e.name = type.baseName := find?_name he
    obtain ⟨qs, hl, -⟩ := input_of_mem_names hr he (hname ▸ hn.resolve_right (by simp)) (hfree _ e .refl he)
    exact ⟨hname ▸ rfl, _, _, hl, rfl, he, rfl⟩

/-- The input objects reached from a registered one are registered. -/
theorem mem_names_of_reaches (hr : r.Sound s []) {type E : String}
    (hE : Relation.ReflTransGen s.InputField type E) {d : InputDefinition} (hd : s.find? E = some (.input d))
    (hfree : s.NamesFree r type) (hn : ∀ d, s.find? type = some (.input d) → type ∈ r.names) : E ∈ r.names := by
  induction hE using Relation.ReflTransGen.head_induction_on with
  | refl => exact hn d hd
  | @head a b hab _ ih =>
    refine ih (hfree.field hab) fun e he => ?_
    obtain ⟨d', f, hd', hf, rfl⟩ := hab
    obtain ⟨qs, -, hall⟩ := input_of_mem_names hr hd' (hn d' hd') (hfree _ d' .refl hd')
    obtain ⟨q, -, base, -, hb⟩ := exists_of_forall₂_left hall hf
    cases hb with
    | input h hn => exact find?_name h ▸ hn.resolve_right (by simp)
    | scalar h | enumeration h _ => cases he.symm.trans h

theorem IsVariableProperty.resolves (hr : r.Sound s []) {v : VariableDefinition} {q : Property}
    (h : s.IsVariableProperty r v q) (hfree : s.NamesFree r v.type.baseName) : s.VariableResolves r v q := by
  refine ⟨h.2.resolves hr hfree, fun E d hE hd => ?_⟩
  have hn : ∀ d, s.find? v.type.baseName = some (.input d) → v.type.baseName ∈ r.names := by
    intro d' hd'
    obtain ⟨-, t, -, hl, -⟩ := h.2.resolves hr hfree _ hd' (.inr rfl)
    exact mem_names_of_lookup? hl
  have hmem := mem_names_of_reaches hr hE hd hfree hn
  obtain ⟨qs, hl, hall⟩ := input_of_mem_names hr hd hmem (hfree E d hE hd)
  refine ⟨_, hl, ?_⟩
  refine forall₂_imp_mem hall fun f hf q hq => ?_
  obtain ⟨base, rfl, hb⟩ := hq
  refine ⟨rfl, InputBase.resolves hr (by rwa [base_ofTypeRef]) ?_⟩
  exact fun E' d' hE' => hfree E' d' ((hE.tail ⟨d, f, hd, hf, rfl⟩).trans hE')

theorem isOutput_of_resolves {n : String} {d : InputDefinition} (h : s.Resolves r n n)
    (hd : s.find? n = some (.input d)) {t : Shape} (ht : r.lookup? n = some t) : t.kind.isOutput = false := by
  obtain ⟨t', d', hl, -, hd', hkind⟩ := h
  obtain rfl := Option.some.inj (ht.symm.trans hl)
  obtain rfl := Option.some.inj (hd.symm.trans hd')
  generalize t.kind = k at hkind
  cases k with
  | inputObject | enumeration => rfl
  | object | interface | union => cases hkind

theorem VariableResolves.namesFree {v : VariableDefinition} {q : Property} (h : s.VariableResolves r v q) :
    s.NamesFree r v.type.baseName := by
  intro E d hE hd t ht
  rcases Relation.ReflTransGen.cases_tail hE with rfl | ⟨a, ha, d', f, hd', hf, rfl⟩
  · exact isOutput_of_resolves (h.1 _ hd (.inr rfl)).2 hd ht
  · obtain ⟨t', -, hall⟩ := h.2 a d' ha hd'
    obtain ⟨q', -, -, hres⟩ := exists_of_forall₂_left hall hf
    exact isOutput_of_resolves (hres _ hd (.inr rfl)).2 hd ht

end NamesFree

/-- **After any calls, the variables of an operation that succeeds get the types they declare, down
to every field of every input object they reach, if and only if no output shape has the name of
such an input object.** -/
theorem variables_resolve_iff {s : Schema} {d : Document} {ops : List Operation} {op : Operation}
    {shape : OperationShape} {p : Progress}
    (h : Runs (s.generateOperation d op) (s.calls d ops .start).2 shape p) :
    List.Forall₂ (s.VariableResolves p.registry) op.parameters shape.parameters ↔
      ∀ v ∈ op.parameters, s.NamesFree p.registry v.type.baseName := by
  obtain ⟨⟨hI, hexp⟩, -⟩ := calls_sound s d ops
  obtain ⟨hI', hexp', -, hall⟩ := operationShapes_sound hI hexp (generateOperation_runs.1 h)
  unfold KeptSound at hI'
  rw [hexp'] at hI'
  constructor
  · intro hres v hv
    obtain ⟨q, -, hq⟩ := exists_of_forall₂_left hres hv
    exact hq.namesFree
  · intro hfree
    exact forall₂_imp_mem hall fun v hv q hq => hq.resolves hI' (hfree v hv)

/-! A query without a name of its own, and one with a variable of a type that refers to itself. -/

def filters : Schema where
  types := [
    .scalar ⟨"String", none⟩,
    .object ⟨"Query", none, [], [⟨"found", .named "String", none⟩]⟩,
    .enumeration ⟨"Role", none, [⟨"ADMIN", none⟩, ⟨"MEMBER", none⟩]⟩,
    .input ⟨"Filter", none, [⟨"role", .named "Role", none⟩, ⟨"all", .list (.named "Filter"), none⟩]⟩]
  roots := {}
  scalars := .default

def foundQuery : Operation := ⟨none, .query, [], [.field none "found" false []], "query \x7b found \x7d"⟩

def findQuery : Operation :=
  ⟨some "Find", .query, [⟨"where", .nonNull (.named "Filter"), false⟩], [.field none "found" false []],
    "query Find($where: Filter!) \x7b found \x7d"⟩

theorem filter_resolves_iff : ∃ shape p, Runs (filters.generateOperation ⟨[], []⟩ findQuery)
    (filters.calls ⟨[], []⟩ [foundQuery] .start).2 shape p ∧
      (List.Forall₂ (filters.VariableResolves p.registry) findQuery.parameters shape.parameters ↔
        ∀ v ∈ findQuery.parameters, filters.NamesFree p.registry v.type.baseName) := by
  have hrun : Runs (filters.generateOperation ⟨[], []⟩ findQuery) (filters.calls ⟨[], []⟩ [foundQuery] .start).2
      ⟨some "Find", .query, "FindData", [⟨"where", "where", .named (.generated "Filter") false, none⟩],
        "query Find($where: Filter!) \x7b found \x7d"⟩ _ := runs_of_outcome (by cbv)
  exact ⟨_, _, hrun, variables_resolve_iff hrun⟩

/-! The data of the query `Q` is named `QData`, which an input object may be named as well. -/

def clashing : Schema where
  types := [
    .scalar ⟨"String", none⟩, .scalar ⟨"Int", none⟩,
    .object ⟨"Query", none, [], [⟨"a", .named "String", none⟩]⟩,
    .input ⟨"QData", none, [⟨"x", .named "Int", none⟩]⟩]
  roots := {}
  scalars := .default

def clashingQuery : Operation :=
  ⟨some "Q", .query, [⟨"v", .named "QData", false⟩], [.field none "a" false []],
    "query Q($v: QData) \x7b a \x7d"⟩

/-- The variable leads to the shape of the data. -/
theorem clashing_not_resolved : ∃ shape p, Runs (clashing.generateOperation ⟨[], []⟩ clashingQuery)
    (clashing.calls ⟨[], []⟩ [] .start).2 shape p ∧
      ¬ List.Forall₂ (clashing.VariableResolves p.registry) clashingQuery.parameters shape.parameters := by
  have hrun : Runs (clashing.generateOperation ⟨[], []⟩ clashingQuery) (clashing.calls ⟨[], []⟩ [] .start).2
      ⟨some "Q", .query, "QData", [⟨"v", "v", .named (.generated "QData") true, none⟩],
        "query Q($v: QData) \x7b a \x7d"⟩ _ := runs_of_outcome (by cbv)
  refine ⟨_, _, hrun, fun h => ?_⟩
  obtain ⟨hres, -⟩ := (List.forall₂_cons.1 h).1
  obtain ⟨-, t, d, hl, -, hd, hkind⟩ := hres _ rfl (.inr rfl)
  have hdata : ((outcome (clashing.generateOperation ⟨[], []⟩ clashingQuery)
      (clashing.calls ⟨[], []⟩ [] .start).2).2.registry.lookup? "QData").map (·.kind) = some .object := by cbv
  have hinput : d.kind = .inputObject := by
    cases hd
    rfl
  have hobject : t.kind = .object := by
    have hsome : (some t).map (·.kind) = some .object := hl ▸ hdata
    simpa using hsome
  rw [hobject, hinput] at hkind
  cases hkind

end Schema

end TypedQuery
