/-
The text of an operation lists fragments in pre-order. `reach` keeps the names
still to visit in one list, in front of which it puts the spreads of what it
meets. The recursive walk (`preorderFrom`) is through with the spreads of a
fragment before it goes on beside it. Reaching a list of names is reaching its
parts one after the other (`reach_append`), so both meet the same fragments in
the same order (`preorderFrom_eq`).
-/
import TypedQuery.Proofs.SourceText

namespace TypedQuery

namespace Document

/-- The fragments met by a depth-first walk over `names`, after those `met` before: one that is new comes
first, then what its spreads meet, then what the names beside it meet. -/
def preorderFrom (d : Document) (met : List Fragment) : List String → { all : List Fragment // met ⊆ all }
  | [] => ⟨met, List.Subset.refl met⟩
  | name :: rest =>
    if _hm : name ∈ met.map (·.name) then d.preorderFrom met rest
    else
      match _hf : d.fragment? name with
      | none => d.preorderFrom met rest
      | some f =>
        match d.preorderFrom (met ++ [f]) (Selection.spreadsOf f.selections) with
        | ⟨below, hbelow⟩ =>
          let all := d.preorderFrom below rest
          ⟨all.1, List.Subset.trans (List.append_subset.1 hbelow).1 all.2⟩
termination_by names => ((d.fragmentsOutside (met.map (·.name))).length, names.length)
decreasing_by
  · simp_wf; simp [Prod.lex_def]
  · simp_wf; simp [Prod.lex_def]
  · refine Prod.Lex.left _ _ (fragmentsOutside_lt _hf _hm ?_ ?_) <;> simp_all [fragment?_name _hf]
  · refine Prod.Lex.left _ _ (fragmentsOutside_lt _hf _hm ?_ ?_)
    · exact List.mem_map.2 ⟨f, hbelow (by simp), fragment?_name _hf⟩
    · exact fun n hn => List.map_subset _ (List.append_subset.1 hbelow).1 hn

/-- The fragments that a depth-first walk over `names` meets, in pre-order. -/
def preorder (d : Document) (names : List String) : List Fragment := (d.preorderFrom [] names).1

variable {d : Document} {reached pending more : List String} {met : List Fragment} {n : String}

theorem preorderFrom_met (h : n ∈ met.map (·.name)) :
    (d.preorderFrom met (n :: pending)).1 = (d.preorderFrom met pending).1 := by
  rw [preorderFrom, dif_pos h]

theorem preorderFrom_undefined (h : n ∉ met.map (·.name)) (hf : d.fragment? n = none) :
    (d.preorderFrom met (n :: pending)).1 = (d.preorderFrom met pending).1 := by
  rw [preorderFrom, dif_neg h]
  split
  next => rfl
  next f hf' => cases hf.symm.trans hf'

theorem preorderFrom_new (h : n ∉ met.map (·.name)) {f : Fragment} (hf : d.fragment? n = some f) :
    (d.preorderFrom met (n :: pending)).1 =
      (d.preorderFrom (d.preorderFrom (met ++ [f]) (Selection.spreadsOf f.selections)).1 pending).1 := by
  rw [preorderFrom, dif_neg h]
  split
  next hf' => cases hf.symm.trans hf'
  next g hg =>
    obtain rfl : f = g := Option.some.inj (hf.symm.trans hg)
    rfl

/-- Names are reached one after the other, each with all that it reaches. -/
theorem reach_append : d.reach reached (pending ++ more) = d.reach (d.reach reached pending) more := by
  induction reached, pending using reach_induct (d := d) with
  | nil reached => rw [List.nil_append, reach.eq_def d reached []]
  | old reached n pending hin ih => rw [List.cons_append, reach_old hin, reach_old hin, ih]
  | new reached n pending hin ih =>
    rw [List.cons_append, reach_new hin, reach_new hin, ← List.append_assoc, ih]

/-- The names of the fragments among those reached. -/
theorem mem_names : n ∈ (reached.filterMap d.fragment?).map (·.name) ↔ n ∈ reached ∧ ∃ f, d.fragment? n = some f := by
  simp only [List.mem_map, List.mem_filterMap]
  constructor
  · rintro ⟨f, ⟨m, hm, hf⟩, rfl⟩
    rw [fragment?_name hf]
    exact ⟨hm, f, hf⟩
  · rintro ⟨hn, f, hf⟩
    exact ⟨f, ⟨n, hn, hf⟩, fragment?_name hf⟩

/-- The recursive walk meets the fragments that are reached, in the same order. -/
theorem preorderFrom_eq (h : met = reached.filterMap d.fragment?) :
    (d.preorderFrom met pending).1 = (d.reach reached pending).filterMap d.fragment? := by
  induction met, pending using preorderFrom.induct d generalizing reached with
  | case1 met => rw [preorderFrom, reach, h]
  | case2 met n pending hm ih =>
    rw [preorderFrom_met hm, reach_old (mem_names.1 (h ▸ hm)).1, ih h]
  | case3 met n pending hm hf ih =>
    rw [preorderFrom_undefined hm hf]
    by_cases hn : n ∈ reached
    · rw [reach_old hn, ih h]
    · have hspreads : d.spreadsIn n = [] := by simp [spreadsIn, hf]
      have hmet : met = (reached ++ [n]).filterMap d.fragment? := by simp [h, hf]
      rw [reach_new hn, hspreads, List.nil_append, ih hmet]
  | case4 met n pending hm f hf below hbelow heq ihb ih =>
    have hn : n ∉ reached := fun hn => hm (h ▸ mem_names.2 ⟨hn, f, hf⟩)
    have hmet : met ++ [f] = (reached ++ [n]).filterMap d.fragment? := by simp [h, hf]
    have hbelow := ihb hmet
    rw [heq] at hbelow
    rw [preorderFrom_new hm hf, heq, reach_new hn, reach_append, spreadsIn_eq hf, ih hbelow]

theorem preorder_eq_fragmentsOf {op : Operation} :
    d.preorder (Selection.spreadsOf op.selections) = d.fragmentsOf op :=
  preorderFrom_eq rfl

/-- Texts that are added one after the other are separated by the same text. -/
theorem foldl_eq_intercalate (source separator : String) (fragments : List Fragment) :
    fragments.foldl (fun text f => text ++ separator ++ f.source) source =
      separator.intercalate (source :: fragments.map (·.source)) := by
  induction fragments generalizing source with
  | nil => rfl
  | cons f fragments ih => exact ih _

/-- **The text of an operation** is its own and those of the fragments it reaches, each after a blank line
and once, in the order in which a recursive walk first meets them. -/
theorem operationSource_preorder {op : Operation} :
    d.operationSource op =
      "\n\n".intercalate (op.source :: (d.preorder (Selection.spreadsOf op.selections)).map (·.source)) ∧
    ((d.preorder (Selection.spreadsOf op.selections)).map (·.name)).Nodup ∧
    ∀ f, f ∈ d.preorder (Selection.spreadsOf op.selections) ↔
      ∃ n, d.fragment? n = some f ∧ d.Reaches op.selections n := by
  rw [preorder_eq_fragmentsOf]
  refine ⟨foldl_eq_intercalate _ _ _, fragmentsOf_nodup, fun f => ?_⟩
  rw [mem_fragmentsOf]
  constructor
  · rintro ⟨m, hm, n, hn, hf⟩
    exact ⟨n, hf, m, hm, hn⟩
  · rintro ⟨n, hf, m, hm, hn⟩
    exact ⟨m, hm, n, hn, hf⟩

end Document

end TypedQuery
