/-
Facts about the registry: a look-up keeps its answer while shapes are added
at the end, and a shape kept under a suffixed name is found under it. The
search for a free candidate succeeds because the candidates are distinct and
there is one more of them than there are names (`nameFor_spec`), and a later
search for the same shape finds the same name (`nameFor_of_extends`).
-/
import TypedQuery.Registry
import Mathlib.Data.List.Perm.Subperm
import Mathlib.Data.List.Nodup
import Std.Data.String.ToNat

namespace TypedQuery

namespace Registry

/-- The shapes of `r`, and perhaps more after them. -/
def Extends (r' r : Registry) : Prop := r.shapes <+: r'.shapes

theorem Extends.refl (r : Registry) : r.Extends r := List.prefix_rfl

theorem Extends.trans {r r₁ r₂ : Registry} (h₂ : r₂.Extends r₁) (h₁ : r₁.Extends r) : r₂.Extends r :=
  List.IsPrefix.trans h₁ h₂

theorem lookup?_name {r : Registry} {n : String} {t : Shape} (h : r.lookup? n = some t) : t.name = n := by
  simpa using List.find?_some h

theorem mem_of_lookup? {r : Registry} {n : String} {t : Shape} (h : r.lookup? n = some t) : t ∈ r.shapes :=
  List.mem_of_find?_eq_some h

theorem Extends.lookup? {r r' : Registry} (h : r'.Extends r) {n : String} {t : Shape}
    (ht : r.lookup? n = some t) : r'.lookup? n = some t := by
  obtain ⟨more, hmore⟩ := h
  simp only [Registry.lookup?] at ht ⊢
  rw [← hmore, List.find?_append, ht]
  rfl

theorem contains_iff {r : Registry} {n : String} : r.contains n = true ↔ n ∈ r.names := by
  simp [contains, lookup?, names, List.find?_isSome]

theorem truncate_of_extends {r r' : Registry} (h : r'.Extends r) : r'.truncate r.size = r := by
  obtain ⟨more, hmore⟩ := h
  simp [truncate, size, ← hmore]

/-! ## Candidate names -/

theorem candidate_succ_ne (base : String) (n : Nat) : candidate base (n + 1) ≠ base := by
  intro h
  simp [candidate] at h

theorem candidate_injective (base : String) : Function.Injective (candidate base) := by
  intro i j h
  match i, j with
  | 0, 0 => rfl
  | 0, j + 1 => exact absurd h.symm (candidate_succ_ne base j)
  | i + 1, 0 => exact absurd h (candidate_succ_ne base i)
  | i + 1, j + 1 =>
    have : i + 2 = j + 2 := Nat.repr_injective ((String.append_right_inj base).1 h)
    omega

/-- A candidate is its base, alone or followed by digits. -/
theorem candidate_digits (base : String) (n : Nat) :
    ∃ digits : String, (∀ c ∈ digits.toList, c.isDigit = true) ∧ candidate base n = base ++ digits := by
  cases n with
  | zero => exact ⟨"", by simp, by simp [candidate]⟩
  | succ n =>
    refine ⟨toString (n + 2), fun c hc => ?_, rfl⟩
    exact Nat.isDigit_of_mem_toDigits (by omega) (by omega) (Nat.toList_repr ▸ hc)

/-- Of more candidates than there are names, one is free. -/
theorem exists_free {candidate : Nat → String} (hinjective : Function.Injective candidate) (names : List String) :
    ∃ n < names.length + 1, candidate n ∉ names := by
  by_contra hall
  push Not at hall
  have hsub : (List.range (names.length + 1)).map candidate ⊆ names := by
    intro n hn
    obtain ⟨i, hi, rfl⟩ := List.mem_map.1 hn
    exact hall i (List.mem_range.1 hi)
  have hnodup : ((List.range (names.length + 1)).map candidate).Nodup := List.nodup_range.map hinjective
  have hlength := (List.subperm_of_subset hnodup hsub).length_le
  rw [List.length_map, List.length_range] at hlength
  exact Nat.not_succ_le_self _ hlength

/-- Of the candidates that `nameFor` tries, one is free. -/
theorem exists_free_candidate (r : Registry) (base : String) :
    ∃ n < r.size + 1, r.lookup? (candidate base n) = none := by
  obtain ⟨n, hn, hfree⟩ := exists_free (candidate_injective base) r.names
  rw [names, List.length_map] at hn
  exact ⟨n, hn, by simpa [contains] using mt contains_iff.1 hfree⟩

theorem admits_of_free {r : Registry} {s : Shape} {n : String} (h : r.lookup? n = none) :
    r.admits s n = true := by
  simp [admits, h]

/-- The search finds a name. -/
theorem find?_candidate (r : Registry) (s : Shape) :
    ((List.range (r.size + 1)).map (candidate s.name)).find? (r.admits s) = some (r.nameFor s) := by
  obtain ⟨k, hk, hfree⟩ := exists_free_candidate r s.name
  have hsome : (((List.range (r.size + 1)).map (candidate s.name)).find? (r.admits s)).isSome := by
    rw [List.find?_isSome]
    exact ⟨_, List.mem_map_of_mem (List.mem_range.2 hk), admits_of_free hfree⟩
  obtain ⟨n, hn⟩ := Option.isSome_iff_exists.1 hsome
  simp [nameFor, hn]

/-- The name found for a shape is one of its candidates, and admits it. -/
theorem nameFor_spec (r : Registry) (s : Shape) :
    r.admits s (r.nameFor s) = true ∧ ∃ n, r.nameFor s = candidate s.name n := by
  have hn := find?_candidate r s
  obtain ⟨i, -, hi⟩ := List.mem_map.1 (List.mem_of_find?_eq_some hn)
  exact ⟨List.find?_some hn, i, hi.symm⟩

/-! ## Keeping a shape -/

/-- `r'` is `r` with the shape `t`: the same registry if it holds `t` already,
else with `t` at the end. -/
structure Keeps (r : Registry) (t : Shape) (r' : Registry) : Prop where
  held : r'.lookup? t.name = some t
  grown : r' = r ∨ r.lookup? t.name = none ∧ r'.shapes = r.shapes ++ [t]

theorem Keeps.extends {r r' : Registry} {t : Shape} (h : r.Keeps t r') : r'.Extends r := by
  rcases h.grown with rfl | ⟨-, hs⟩
  · exact .refl _
  · exact ⟨_, hs.symm⟩

/-- What all shapes are, they still are if the one that is kept is so too. -/
theorem Keeps.all {r r' : Registry} {t : Shape} {P : Shape → Prop} (hk : r.Keeps t r') (h : ∀ u ∈ r.shapes, P u)
    (ht : P t) : ∀ u ∈ r'.shapes, P u := by
  rcases hk.grown with rfl | ⟨-, hs⟩
  · exact h
  · rw [hs, List.forall_mem_append]
    exact ⟨h, List.forall_mem_singleton.2 ht⟩

theorem keeps_of_held {r : Registry} {t : Shape} (h : r.lookup? t.name = some t) : r.Keeps t r :=
  ⟨h, .inl rfl⟩

theorem keeps_of_free {r : Registry} {t : Shape} (h : r.lookup? t.name = none) :
    r.Keeps t ⟨r.shapes ++ [t]⟩ := by
  refine ⟨?_, .inr ⟨h, rfl⟩⟩
  simp only [lookup?] at h
  simp [lookup?, List.find?_append, h]

theorem Keeps.nodup {r r' : Registry} {t : Shape} (h : r.Keeps t r') (hd : r.names.Nodup) : r'.names.Nodup := by
  rcases h.grown with rfl | ⟨hfree, hs⟩
  · exact hd
  · have hnew : t.name ∉ r.names := fun hm => by
      have := contains_iff.2 hm
      simp [contains, hfree] at this
    simp only [names, hs, List.map_append, List.map_cons, List.map_nil]
    exact hd.append (List.nodup_singleton _) (by simpa [names] using hnew)

/-- What held of every shape over the shapes before it still does, if it holds of the new shape over all others. -/
theorem Keeps.each {r r' : Registry} {t : Shape} {P : Registry → Shape → Prop} (hk : r.Keeps t r')
    (h : ∀ pre shape post, r.shapes = pre ++ shape :: post → P ⟨pre⟩ shape) (ht : P r t) :
    ∀ pre shape post, r'.shapes = pre ++ shape :: post → P ⟨pre⟩ shape := by
  rcases hk.grown with rfl | ⟨-, hshapes⟩
  · exact h
  · intro pre shape post hsplit
    rw [hshapes] at hsplit
    rcases List.eq_nil_or_concat post with rfl | ⟨post, last, rfl⟩
    · obtain ⟨rfl, hlast⟩ := List.append_inj' hsplit rfl
      cases hlast
      exact ht
    · rw [List.concat_eq_append, ← List.cons_append, ← List.append_assoc] at hsplit
      obtain ⟨hpre, -⟩ := List.append_inj' hsplit rfl
      exact h pre shape post hpre

theorem register_keeps {r r' : Registry} {t : Shape} (h : r.register t = .ok r') : r.Keeps t r' := by
  simp only [register] at h
  split at h
  next hfree =>
    cases h
    exact keeps_of_free hfree
  next u hu =>
    split at h
    next hut =>
      cases h
      exact keeps_of_held (hut ▸ hu)
    next => cases h

theorem registerDeduplicated_keeps (r : Registry) (t : Shape) :
    r.Keeps { t with name := (r.registerDeduplicated t).2 } (r.registerDeduplicated t).1 := by
  have hadm := (r.nameFor_spec t).1
  simp only [registerDeduplicated]
  cases hl : r.lookup? (r.nameFor t) with
  | none =>
    simp only [contains, hl, Option.isSome_none, Bool.false_eq_true, if_false]
    exact keeps_of_free hl
  | some u =>
    simp only [admits, hl, decide_eq_true_eq] at hadm
    simp only [contains, hl, Option.isSome_some, if_true]
    exact keeps_of_held (hl.trans (congrArg some hadm))

/-! ## Searching again -/

/-- The search finds the same name again once the shape is kept under it: what has refused an earlier
candidate still does. -/
theorem nameFor_of_extends {r r' : Registry} {s : Shape} (h : r'.Extends r)
    (hheld : r'.lookup? (r.nameFor s) = some { s with name := r.nameFor s }) : r'.nameFor s = r.nameFor s := by
  have hrefused : ∀ n, r.admits s n = false → r'.admits s n = false := by
    intro n hn
    unfold admits at hn ⊢
    split at hn
    next => cases hn
    next u hu => rwa [h.lookup? hu]
  obtain ⟨-, before, after, hsplit, hbefore⟩ := List.find?_eq_some_iff_append.1 (find?_candidate r s)
  obtain ⟨more, hmore⟩ : ∃ more, r'.size = r.size + more := Nat.exists_eq_add_of_le h.length_le
  have hfind : ((List.range (r'.size + 1)).map (candidate s.name)).find? (r'.admits s) = some (r.nameFor s) := by
    rw [hmore, Nat.add_right_comm, List.range_add, List.map_append, hsplit, List.append_assoc,
      List.find?_eq_some_iff_append]
    refine ⟨by simp [admits, hheld], before, _, rfl, fun n hn => ?_⟩
    simpa using hrefused n (by simpa using hbefore n hn)
  exact Option.some.inj ((find?_candidate r' s).symm.trans hfind)

theorem registerDeduplicated_of_extends {r r' : Registry} {s : Shape}
    (h : r'.Extends (r.registerDeduplicated s).1) :
    r'.registerDeduplicated s = (r', (r.registerDeduplicated s).2) := by
  have hk := r.registerDeduplicated_keeps s
  have hheld : r'.lookup? (r.nameFor s) = some { s with name := r.nameFor s } := h.lookup? hk.held
  have hname : r'.nameFor s = r.nameFor s := nameFor_of_extends (h.trans hk.extends) hheld
  simp [registerDeduplicated, hname, contains, hheld]

theorem register_of_held {r : Registry} {t : Shape} (h : r.lookup? t.name = some t) : r.register t = .ok r := by
  simp [register, h]

end Registry

end TypedQuery
