/-
The fragments that selections reach. `reach` finds each name once
(`reach_nodup`), and exactly those to which a chain of spreads leads
(`mem_reach`): what has been reached is closed under spreading but for the
names still pending, and at the end none are. Whatever is made of selections
depends on the fragments they reach only: documents in which these are the
same (`SameFrom`) reach, check and open the same.
-/
import TypedQuery.Proofs.Opening

namespace TypedQuery

namespace Document

variable {d d' : Document} {reached pending names : List String} {n m : String} {selections : List Selection}

theorem fragment?_name {f : Fragment} (h : d.fragment? n = some f) : f.name = n := by
  simpa using List.find?_some h

theorem spreadsIn_eq {f : Fragment} (hf : d.fragment? n = some f) :
    d.spreadsIn n = Selection.spreadsOf f.selections := by
  simp [spreadsIn, hf]

/-! ## Reached names -/

theorem reach_old (h : n ∈ reached) : d.reach reached (n :: pending) = d.reach reached pending := by
  rw [reach, if_pos h]

/-- A name that is new brings those spread in its fragment; one that is not defined brings none. -/
theorem reach_new (h : n ∉ reached) :
    d.reach reached (n :: pending) = d.reach (reached ++ [n]) (d.spreadsIn n ++ pending) := by
  rw [reach, if_neg h]
  split
  next hf => simp [spreadsIn, hf]
  next f hf => rw [spreadsIn_eq hf]

/-- Induction along `reach`. -/
theorem reach_induct {P : List String → List String → Prop} (nil : ∀ reached, P reached [])
    (old : ∀ reached n pending, n ∈ reached → P reached pending → P reached (n :: pending))
    (new : ∀ reached n pending, n ∉ reached → P (reached ++ [n]) (d.spreadsIn n ++ pending) →
      P reached (n :: pending)) (reached pending : List String) : P reached pending := by
  induction reached, pending using Document.reach.induct d with
  | case1 reached => exact nil reached
  | case2 reached n pending hin ih => exact old reached n pending hin ih
  | case3 reached n pending hin hf ih => exact new reached n pending hin (by simpa [spreadsIn, hf] using ih)
  | case4 reached n pending hin f hf ih => exact new reached n pending hin (by rwa [spreadsIn_eq hf])

theorem subset_reach (h : n ∈ reached ∨ n ∈ pending) : n ∈ d.reach reached pending := by
  induction reached, pending using reach_induct (d := d) with
  | nil reached =>
    rw [reach]
    exact h.resolve_right List.not_mem_nil
  | old reached a pending hin ih =>
    rw [reach_old hin]
    rcases h with h | h
    · exact ih (.inl h)
    · rcases List.mem_cons.1 h with rfl | h
      · exact ih (.inl hin)
      · exact ih (.inr h)
  | new reached a pending hin ih =>
    rw [reach_new hin]
    refine ih ?_
    simp only [List.mem_append, List.mem_cons, List.not_mem_nil, or_false] at h ⊢
    tauto

/-- What is reached was reached before, or a chain of spreads leads to it. -/
theorem reach_sound (h : m ∈ d.reach reached pending) :
    m ∈ reached ∨ ∃ n ∈ pending, Relation.ReflTransGen d.Spreads n m := by
  induction reached, pending using reach_induct (d := d) with
  | nil reached =>
    rw [reach] at h
    exact .inl h
  | old reached a pending hin ih =>
    rw [reach_old hin] at h
    refine (ih h).imp_right ?_
    rintro ⟨n, hn, hm⟩
    exact ⟨n, List.mem_cons_of_mem _ hn, hm⟩
  | new reached a pending hin ih =>
    rw [reach_new hin] at h
    rcases ih h with h | ⟨n, hn, hm⟩
    · rcases List.mem_append.1 h with h | h
      · exact .inl h
      · exact .inr ⟨a, List.mem_cons_self, List.mem_singleton.1 h ▸ .refl⟩
    · rcases List.mem_append.1 hn with hn | hn
      · exact .inr ⟨a, List.mem_cons_self, .head hn hm⟩
      · exact .inr ⟨n, List.mem_cons_of_mem _ hn, hm⟩

/-- What is reached spreads nothing else, if that holds of what was reached before but for the names
pending. -/
theorem reach_closed (hclosed : ∀ n ∈ reached, ∀ m, d.Spreads n m → m ∈ reached ∨ m ∈ pending)
    (hn : n ∈ d.reach reached pending) (hm : d.Spreads n m) : m ∈ d.reach reached pending := by
  induction reached, pending using reach_induct (d := d) with
  | nil reached =>
    rw [reach] at hn ⊢
    exact (hclosed n hn m hm).resolve_right List.not_mem_nil
  | old reached a pending hin ih =>
    rw [reach_old hin] at hn ⊢
    refine ih (fun n hn m hm => ?_) hn
    rcases hclosed n hn m hm with h | h
    · exact .inl h
    · exact (List.mem_cons.1 h).imp_left fun (h : m = a) => h ▸ hin
  | new reached a pending hin ih =>
    rw [reach_new hin] at hn ⊢
    refine ih (fun n hn m hm => ?_) hn
    simp only [List.mem_append, List.mem_singleton] at hn ⊢
    rcases hn with hn | rfl
    · rcases hclosed n hn m hm with h | h
      · exact .inl (.inl h)
      · exact (List.mem_cons.1 h).elim (fun h => .inl (.inr h)) fun h => .inr (.inr h)
    · exact .inr (.inl hm)

/-- **The names reached** from pending ones are those to which a chain of spreads leads. -/
theorem mem_reach : m ∈ d.reach [] pending ↔ ∃ n ∈ pending, Relation.ReflTransGen d.Spreads n m := by
  constructor
  · exact fun h => (reach_sound h).resolve_left List.not_mem_nil
  · rintro ⟨n, hn, hm⟩
    induction hm with
    | refl => exact subset_reach (.inr hn)
    | tail _ hm ih => exact reach_closed (by simp) ih hm

theorem reach_nodup (h : reached.Nodup) : (d.reach reached pending).Nodup := by
  induction reached, pending using reach_induct (d := d) with
  | nil reached => rwa [reach]
  | old reached a pending hin ih =>
    rw [reach_old hin]
    exact ih h
  | new reached a pending hin ih =>
    rw [reach_new hin]
    exact ih (h.append (List.nodup_singleton a) (by simpa using hin))

/-! ## Reached from selections -/

/-- A chain of spreads leads from `selections` to `n`. -/
def Reaches (d : Document) (selections : List Selection) (n : String) : Prop :=
  ∃ m ∈ Selection.spreadsOf selections, Relation.ReflTransGen d.Spreads m n

theorem spreads_subset {selection : Selection} (h : selection ∈ selections) :
    selection.spreads ⊆ Selection.spreadsOf selections := by
  induction selections with
  | nil => simp at h
  | cons first rest ih =>
    rw [Selection.spreadsOf]
    rcases List.mem_cons.1 h with rfl | h
    · exact List.subset_append_left _ _
    · exact List.subset_append_of_subset_right _ (ih h)

theorem Reaches.mono {inner : List Selection} (h : d.Reaches inner n)
    (hsub : Selection.spreadsOf inner ⊆ Selection.spreadsOf selections) : d.Reaches selections n :=
  h.imp fun _ hm => hm.imp_left (hsub ·)

theorem Reaches.tail {m : String} (h : d.Reaches selections n) (hm : d.Spreads n m) : d.Reaches selections m :=
  h.imp fun _ ha => ha.imp_right (·.tail hm)

/-- What a fragment reaches is reached from where it is spread. -/
theorem Reaches.spread {m : String} {c : Bool} {f : Fragment} (h : d.Reaches f.selections n)
    (hm : Selection.spread m c ∈ selections) (hf : d.fragment? m = some f) : d.Reaches selections n := by
  obtain ⟨m', hm', hn⟩ := h
  exact ⟨m, spreads_subset hm (by simp [Selection.spreads]), .head (by simpa [Spreads, spreadsIn, hf] using hm') hn⟩

/-! ## Documents that are the same where selections reach -/

/-- The names reached from `names` stand for the same in `d'` as in `d`. -/
def SameFrom (d d' : Document) (names : List String) : Prop :=
  ∀ n ∈ names, ∀ m, Relation.ReflTransGen d.Spreads n m → d'.fragment? m = d.fragment? m

theorem SameFrom.head (h : d.SameFrom d' (n :: names)) : d'.fragment? n = d.fragment? n :=
  h n List.mem_cons_self n .refl

theorem SameFrom.tail (h : d.SameFrom d' (n :: names)) : d.SameFrom d' names :=
  fun n hn => h n (List.mem_cons_of_mem _ hn)

/-- Below a name, too, all is the same. -/
theorem SameFrom.below (h : d.SameFrom d' (n :: names)) : d.SameFrom d' (d.spreadsIn n) :=
  fun _ hm _ hreach => h n List.mem_cons_self _ (.head hm hreach)

theorem sameFrom_append {more : List String} :
    d.SameFrom d' (names ++ more) ↔ d.SameFrom d' names ∧ d.SameFrom d' more := List.forall_mem_append

theorem reach_congr (h : d.SameFrom d' pending) : d'.reach reached pending = d.reach reached pending := by
  induction reached, pending using reach_induct (d := d) with
  | nil reached => rw [reach, reach]
  | old reached a pending hin ih => rw [reach_old hin, reach_old hin, ih h.tail]
  | new reached a pending hin ih =>
    have hspreads : d'.spreadsIn a = d.spreadsIn a := by rw [spreadsIn, spreadsIn, h.head]
    rw [reach_new hin, reach_new hin, hspreads, ih (sameFrom_append.2 ⟨h.below, h.tail⟩)]

theorem walk_congr {path done : List String} (h : d.SameFrom d' names) :
    d'.walk path done names = d.walk path done names := by
  induction path, done, names using Document.walk.induct d with
  | case1 path done => rw [walk, walk]
  | case2 path done name rest hin ih => rw [walk_done hin, walk_done hin, ih h.tail]
  | case3 path done name rest hin hp => rw [walk_cyclic hin hp, walk_cyclic hin hp]
  | case4 path done name rest hin hp hf ih =>
    rw [walk_undefined hin hp hf, walk_undefined hin hp (h.head.trans hf), ih h.tail]
  | case5 path done name rest hin hp f hf e he ih =>
    have hbelow := ih (spreadsIn_eq hf ▸ h.below)
    rw [walk_defined hin hp hf, walk_defined hin hp (h.head.trans hf), hbelow, he]
    rfl
  | case6 path done name rest hin hp f hf done₁ he ih ihr =>
    have hbelow := ih (spreadsIn_eq hf ▸ h.below)
    rw [walk_defined hin hp hf, walk_defined hin hp (h.head.trans hf), hbelow, he]
    exact ihr h.tail

theorem checkCycles_congr (h : d.SameFrom d' (Selection.spreadsOf selections)) :
    d'.checkCycles selections = d.checkCycles selections := by
  rw [checkCycles, checkCycles, walk_congr h]

theorem Opens.congr {expanded : List Expanded} (hopens : d.Opens selections expanded)
    (h : d.SameFrom d' (Selection.spreadsOf selections)) : d'.Opens selections expanded := by
  induction hopens with
  | nil => exact .nil
  | field _ _ ih ihr =>
    obtain ⟨hsub, hrest⟩ := sameFrom_append.1 h
    exact .field (ih hsub) (ihr hrest)
  | inline _ _ ih ihr =>
    obtain ⟨hsub, hrest⟩ := sameFrom_append.1 h
    exact .inline (ih hsub) (ihr hrest)
  | spread hf _ _ ih ihr => exact .spread (h.head.trans hf) (ih (spreadsIn_eq hf ▸ h.below)) (ihr h.tail)
  | undefined hf _ ihr => exact .undefined (h.head.trans hf) (ihr h.tail)

theorem expand_congr (hac : d.AcyclicFrom selections) (h : d.SameFrom d' (Selection.spreadsOf selections)) :
    d'.expand selections = d.expand selections := by
  have hopens := (expand_opens hac).congr h
  have hac' := acyclicFrom_of_checkCycles (checkCycles_of_ends hopens.ends)
  exact (expand_opens hac').unique hopens

theorem operationSource_congr {op : Operation} (h : d.SameFrom d' (Selection.spreadsOf op.selections)) :
    d'.operationSource op = d.operationSource op := by
  have hfragments : (d.reach [] (Selection.spreadsOf op.selections)).filterMap d'.fragment? =
      (d.reach [] (Selection.spreadsOf op.selections)).filterMap d.fragment? := by
    refine List.filterMap_congr fun m hm => ?_
    obtain ⟨n, hn, hreach⟩ := mem_reach.1 hm
    exact h n hn m hreach
  simp only [operationSource, reach_congr h, hfragments]

end Document

end TypedQuery
