/-
Schema text does not depend on the order in which types are listed. Entries
that may tie in the order (kinds that are not known, scalars that every schema
has) are not written (`typeDefinition_eq_empty`), so they can be left out
after sorting. What is left is sorted by a key in which no two written types
agree, so any order of the list is sorted into the same one
(`toSdl_reordered`).
-/
import TypedQuery.Proofs.DeprecationBlind
import Mathlib.Data.List.Nodup

namespace TypedQuery

namespace Introspection

/-- The same schemas, but for the order in which types are listed. -/
structure Reordered (schema schema' : Json) : Prop where
  members : AgreeBut ["types"] schema schema'
  types : (list schema "types").Perm (list schema' "types")

/-- The kinds of types. -/
def kinds : List String := ["SCALAR", "ENUM", "INPUT_OBJECT", "INTERFACE", "OBJECT", "UNION"]

/-- A type that has a definition in schema text: of a known kind, and neither part of introspection nor of every
schema. -/
def isWritten (t : Json) : Bool :=
  !isMeta (text t "name") && text t "kind" ∈ kinds && !(text t "kind" = "SCALAR" && text t "name" ∈ builtinScalars)

/-- No two written types share both kind and name. -/
def Separated (types : List Json) : Prop :=
  ((types.filter isWritten).map fun t => (text t "kind", text t "name")).Nodup

variable {schema schema' t u : Json}

theorem kindRank_injective {k k' : String} (hk : k ∈ kinds) (hk' : k' ∈ kinds) (h : kindRank k = kindRank k') :
    k = k' := by
  simp only [kinds, List.mem_cons, List.not_mem_nil, or_false] at hk hk'
  rcases hk with rfl | rfl | rfl | rfl | rfl | rfl <;>
    rcases hk' with rfl | rfl | rfl | rfl | rfl | rfl <;> first | rfl | (exact absurd h (by decide))

/-- Other types leave nothing in the text. -/
theorem typeDefinition_eq_empty (hmeta : isMeta (text t "name") = false) (h : isWritten t = false) :
    typeDefinition t = "" := by
  simp only [isWritten, hmeta, Bool.not_false, Bool.true_and, Bool.and_eq_false_iff, decide_eq_false_iff_not,
    Bool.not_eq_false', Bool.and_eq_true, decide_eq_true_eq] at h
  unfold typeDefinition
  rcases h with hkind | ⟨hkind, hname⟩
  · dsimp only
    split <;> first | rfl | (rename_i hk; exact absurd (hk ▸ by decide) hkind)
  · simp only [hkind, if_pos hname]

theorem join_filter {l : List Json} {f : Json → String} {p : Json → Bool} (h : ∀ t ∈ l, p t = false → f t = "") :
    String.join (l.map f) = String.join ((l.filter p).map f) := by
  induction l with
  | nil => rfl
  | cons t l ih =>
    obtain ⟨ht, hl⟩ := List.forall_mem_cons.1 h
    rw [List.map_cons, String.join_cons, ih hl]
    by_cases hp : p t = true
    · rw [List.filter_cons_of_pos hp, List.map_cons, String.join_cons]
    · rw [List.filter_cons_of_neg hp, ht (Bool.eq_false_iff.2 hp), String.empty_append]

/-- Schema text is the definitions of the written types alone. -/
theorem toSdl_eq (schema : Json) : toSdl schema =
    schemaDefinition schema ++ String.join (((writtenTypes schema).filter isWritten).map typeDefinition) := by
  rw [toSdl, join_filter fun t ht => typeDefinition_eq_empty (mem_writtenTypes.1 ht).2]

theorem filter_writtenTypes_perm (schema : Json) :
    ((writtenTypes schema).filter isWritten).Perm ((list schema "types").filter isWritten) := by
  have hall : ((list schema "types").filter fun t => !isMeta (text t "name")).filter isWritten =
      (list schema "types").filter isWritten := by
    rw [List.filter_filter]
    refine List.filter_congr fun t _ => ?_
    cases hmeta : isMeta (text t "name") <;> simp [isWritten, hmeta]
  exact hall ▸ (writtenTypes_perm schema).filter isWritten

/-- Written types of one place in the order are the same. -/
theorem Separated.eq_of_typeLe {types : List Json} (h : Separated types) (ht : t ∈ types.filter isWritten)
    (hu : u ∈ types.filter isWritten) (htu : typeLe t u = true) (hut : typeLe u t = true) : t = u := by
  have hkinds : ∀ {v}, v ∈ types.filter isWritten → text v "kind" ∈ kinds := by
    intro v hv
    have hwritten := (List.mem_filter.1 hv).2
    simp only [isWritten, Bool.and_eq_true, decide_eq_true_eq] at hwritten
    exact hwritten.1.2
  rw [typeLe_iff] at htu hut
  have hrank : kindRank (text t "kind") = kindRank (text u "kind") := by omega
  have hname : text t "name" = text u "name" :=
    String.le_antisymm (htu.resolve_left (by omega)).2 (hut.resolve_left (by omega)).2
  exact List.inj_on_of_nodup_map h ht hu (Prod.ext (kindRank_injective (hkinds ht) (hkinds hu) hrank) hname)

theorem Reordered.schemaDefinition_eq (h : Reordered schema schema') :
    schemaDefinition schema = schemaDefinition schema' := by
  have hroots : roots schema = roots schema' := by
    refine List.filterMap_congr fun root hroot => ?_
    have hkey : root.2.1 ∉ ["types"] := by
      simp only [rootMembers, List.mem_cons, List.not_mem_nil, or_false] at hroot
      rcases hroot with rfl | rfl | rfl <;> decide
    dsimp only
    rw [h.members _ hkey]
  rw [schemaDefinition, schemaDefinition, hroots]

/-- **Schema text is independent of the order in which types are listed**, if no two of those that are written share
both kind and name. -/
theorem toSdl_reordered (h : Reordered schema schema') (hseparated : Separated (list schema "types")) :
    toSdl schema = toSdl schema' := by
  have hperm := filter_writtenTypes_perm schema
  have hperm' := (filter_writtenTypes_perm schema').trans (h.types.symm.filter isWritten)
  have hsorted := (writtenTypes_sorted schema).filter isWritten
  have hsorted' := (writtenTypes_sorted schema').filter isWritten
  have htypes : (writtenTypes schema).filter isWritten = (writtenTypes schema').filter isWritten :=
    List.Perm.eq_of_pairwise
      (fun t u ht hu htu hut => hseparated.eq_of_typeLe (hperm.subset ht) (hperm'.subset hu) htu hut)
      hsorted hsorted' (hperm.trans hperm'.symm)
  rw [toSdl_eq, toSdl_eq, h.schemaDefinition_eq, htypes]

/-- An object, an enum, a scalar that every schema has, and two entries that are no types. -/
def shelfTypes : List Json :=
  [shelfObject, .null, bookEnum, .object [("kind", .string "SCALAR"), ("name", .string "String")], .null]

def shelfOf (types : List Json) : Json :=
  .object [("queryType", .object [("name", .string "Shelf")]), ("types", .array types)]

theorem shelf_reordered : Reordered (shelfOf shelfTypes) (shelfOf shelfTypes.reverse) ∧
    Separated (list (shelfOf shelfTypes) "types") ∧
    toSdl (shelfOf shelfTypes) = toSdl (shelfOf shelfTypes.reverse) := by
  have hreordered : Reordered (shelfOf shelfTypes) (shelfOf shelfTypes.reverse) :=
    ⟨agreeBut_object rfl, (List.reverse_perm shelfTypes).symm⟩
  have hseparated : Separated (list (shelfOf shelfTypes) "types") := by
    unfold Separated
    decide
  exact ⟨hreordered, hseparated, toSdl_reordered hreordered hseparated⟩

end Introspection

end TypedQuery
