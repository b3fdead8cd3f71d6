/-
Facts about schemas: the types of a schema have distinct names
(`Distinct`, kept by `define`, so true of every schema that a text writes),
and what `possibleTypes` and `covers` say at a run-time type: on an object a
fragment covers exactly where the object is one of the possible types of its
condition.
-/
import TypedQuery.Source.Definitions
import TypedQuery.Fragment
import Mathlib.Data.List.Nodup

namespace TypedQuery

namespace Schema

/-- No two types have one name. -/
def Distinct (s : Schema) : Prop := (s.types.map (·.name)).Nodup

theorem distinct_builtin : builtin.Distinct := by
  unfold Distinct
  decide

theorem Distinct.define {s : Schema} (h : s.Distinct) (t : TypeDefinition) : (s.define t).Distinct := by
  unfold Schema.define
  split
  next =>
    have hnames : (s.types.map fun u => if u.name = t.name then t else u).map (·.name) =
        s.types.map (·.name) := by
      rw [List.map_map]
      apply List.map_congr_left
      intro u _
      by_cases hu : u.name = t.name <;> simp [hu]
    unfold Distinct
    rw [hnames]
    exact h
  next hnew =>
    unfold Distinct
    rw [List.map_append]
    refine List.Nodup.append h (List.nodup_singleton _) ?_
    simp only [List.any_eq_true, decide_eq_true_eq] at hnew
    simp only [List.map_cons, List.map_nil, List.disjoint_singleton, List.mem_map]
    exact hnew

theorem Distinct.add {s : Schema} (h : s.Distinct) (definition : Definition) : (s.add definition).Distinct := by
  cases definition with
  | type t => exact h.define t
  | _ => exact h

theorem Distinct.foldl_add {s : Schema} (h : s.Distinct) (definitions : List Definition) :
    (definitions.foldl Schema.add s).Distinct := by
  induction definitions generalizing s with
  | nil => exact h
  | cons definition definitions ih => exact ih (h.add definition)

/-- **A schema that a text writes has distinct type names.** -/
theorem distinct_parse (text : String) : (parse text).Distinct := distinct_builtin.foldl_add _

theorem find?_name {s : Schema} {name : String} {t : TypeDefinition} (h : s.find? name = some t) :
    t.name = name := by
  simpa using List.find?_some h

theorem find?_self {s : Schema} {name : String} {t : TypeDefinition} (h : s.find? name = some t) :
    s.find? t.name = some t := (find?_name h).symm ▸ h

theorem mem_of_find? {s : Schema} {name : String} {t : TypeDefinition} (h : s.find? name = some t) :
    t ∈ s.types :=
  List.mem_of_find?_eq_some h

theorem Distinct.find?_of_mem {s : Schema} (hs : s.Distinct) {t : TypeDefinition} (ht : t ∈ s.types) :
    s.find? t.name = some t := by
  have hsome : (s.find? t.name).isSome := by
    simp only [find?, List.find?_isSome]
    exact ⟨t, ht, by simp⟩
  obtain ⟨u, hu⟩ := Option.isSome_iff_exists.1 hsome
  rw [hu, List.inj_on_of_nodup_map hs (mem_of_find? hu) ht (find?_name hu)]

theorem fieldsOf_eq {s : Schema} {name : String} {t : TypeDefinition} (h : s.find? name = some t) :
    s.fieldsOf name = t.fields := by
  simp [fieldsOf, h]

theorem resolve_eq_ok {s : Schema} {name : String} {t : TypeDefinition} :
    s.resolve name = .ok t ↔ s.find? name = some t := by
  unfold resolve
  cases s.find? name <;> simp

/-! ## Run-time types -/

theorem implementer?_eq_some {name R : String} {t : TypeDefinition} :
    implementer? name t = some R ↔ ∃ o, t = .object o ∧ name ∈ o.interfaces ∧ o.name = R := by
  unfold implementer?
  split
  next o => by_cases h : name ∈ o.interfaces <;> simp [h]
  next h =>
    simp only [reduceCtorEq, false_iff, not_exists, not_and]
    exact fun o ho => absurd ho (h o)

theorem possibleTypes_object {s : Schema} {name : String} {o : ObjectDefinition}
    (h : s.find? name = some (.object o)) : s.possibleTypes name = [name] := by
  have hname : o.name = name := find?_name h
  simp [possibleTypes, h, hname]

theorem possibleTypes_union {s : Schema} {name : String} {u : UnionDefinition}
    (h : s.find? name = some (.union u)) : s.possibleTypes name = u.members := by
  simp [possibleTypes, h]

theorem mem_possibleTypes_interface {s : Schema} {name R : String} {i : InterfaceDefinition}
    (h : s.find? name = some (.interface i)) :
    R ∈ s.possibleTypes name ↔ ∃ o, .object o ∈ s.types ∧ name ∈ o.interfaces ∧ o.name = R := by
  simp only [possibleTypes, h, List.mem_filterMap, implementer?_eq_some]
  constructor
  · rintro ⟨_, ht, o, rfl, hi, hR⟩
    exact ⟨o, ht, hi, hR⟩
  · rintro ⟨o, ht, hi, hR⟩
    exact ⟨_, ht, o, rfl, hi, hR⟩

/-- Scalars, enums and input objects have no run-time types. -/
theorem composite_of_mem_possibleTypes {s : Schema} {name R : String} (h : R ∈ s.possibleTypes name) :
    ∃ t, s.find? name = some t ∧ t.isComposite = true := by
  unfold possibleTypes at h
  cases hf : s.find? name with
  | none => simp [hf] at h
  | some t =>
    refine ⟨t, rfl, ?_⟩
    cases t with
    | object | interface | union => rfl
    | scalar | enumeration | input => simp [hf] at h

/-- Where the members of unions are objects, so is every run-time type. -/
theorem object_of_mem_possibleTypes {s : Schema} (hs : s.Distinct)
    (hmembers : ∀ u, .union u ∈ s.types → ∀ m ∈ u.members, ∃ o, s.find? m = some (.object o)) {name R : String}
    (hR : R ∈ s.possibleTypes name) : ∃ o, s.find? R = some (.object o) := by
  obtain ⟨t, ht, hc⟩ := composite_of_mem_possibleTypes hR
  cases t with
  | object o =>
    rw [possibleTypes_object ht, List.mem_singleton] at hR
    exact ⟨o, hR ▸ ht⟩
  | interface i =>
    obtain ⟨o, ho, -, rfl⟩ := (mem_possibleTypes_interface ht).1 hR
    exact ⟨o, hs.find?_of_mem ho⟩
  | union u =>
    rw [possibleTypes_union ht] at hR
    exact hmembers u (mem_of_find? ht) R hR
  | scalar | enumeration | input => cases hc

theorem filterMap_implementer?_sublist (name : String) :
    ∀ types : List TypeDefinition, (types.filterMap (implementer? name)).Sublist (types.map (·.name))
  | [] => .slnil
  | t :: types => by
    rw [List.map_cons]
    cases h : implementer? name t with
    | none =>
      rw [List.filterMap_cons_none h]
      exact (filterMap_implementer?_sublist name types).cons _
    | some R =>
      obtain ⟨o, rfl, -, rfl⟩ := implementer?_eq_some.1 h
      rw [List.filterMap_cons_some h]
      exact (filterMap_implementer?_sublist name types).cons_cons _

/-- Unions list no member twice. -/
def DistinctMembers (s : Schema) : Prop := ∀ u, .union u ∈ s.types → u.members.Nodup

theorem possibleTypes_nodup {s : Schema} (hs : s.Distinct) (hu : s.DistinctMembers) (name : String) :
    (s.possibleTypes name).Nodup := by
  unfold possibleTypes
  split
  next => exact List.nodup_singleton _
  next => exact List.Nodup.sublist (filterMap_implementer?_sublist name s.types) hs
  next u h => exact hu u (mem_of_find? h)
  next => exact List.nodup_nil

/-! ## Covering -/

theorem covers_refl (s : Schema) (site : String) : s.covers site site = true := by simp [covers]

theorem mem_possibleTypes_of_covers {s : Schema} {condition site R : String}
    (h : s.covers condition site = true) (hR : R ∈ s.possibleTypes site) : R ∈ s.possibleTypes condition := by
  simp only [covers, Bool.or_eq_true, decide_eq_true_eq, Bool.and_eq_true, List.all_eq_true] at h
  rcases h with rfl | ⟨-, h⟩
  · exact hR
  · exact h R hR

/-- A fragment covers an object if and only if the object is a run-time type of its condition. -/
theorem covers_object {s : Schema} {condition R : String} {o : ObjectDefinition}
    (h : s.find? R = some (.object o)) : s.covers condition R = true ↔ R ∈ s.possibleTypes condition := by
  have hR : R ∈ s.possibleTypes R := by simp [possibleTypes_object h]
  constructor
  · exact fun hc => mem_possibleTypes_of_covers hc hR
  · intro hm
    simp [covers, possibleTypes_object h, hm]

end Schema

end TypedQuery
