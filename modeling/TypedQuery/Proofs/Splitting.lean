/-
What splitting does, selection by selection (`Splits`), and what that does to
the fields of a run-time type `R`. Every field that occurs in the selections
for `R` is afterwards in the common part or in the branch of `R`, and no other
is, with the flags it had (`Splits.occurs`). On the way down the flags of a
covering fragment stay on the fragment in the common part, and are written on
the fragments that go to a branch; hence the two ways in which `conditional`
enters the statement.
-/
import TypedQuery.Split
import TypedQuery.Proofs.Occurrence
import TypedQuery.Proofs.SchemaFacts

namespace TypedQuery

namespace Branches

theorem get_add (branches : Branches) (t u : String) (e : Expanded) :
    (branches.add t e).get u = if u = t then branches.get u ++ [e] else branches.get u := by
  induction branches with
  | nil =>
    by_cases h : u = t
    · subst h
      simp [add, get]
    · simp [add, get, h, Ne.symm h]
  | cons b branches ih =>
    obtain ⟨t', fragments⟩ := b
    simp only [get] at ih
    by_cases ht : t' = t
    · subst ht
      by_cases h : t' = u
      · subst h
        simp [add, get]
      · simp [add, get, h, Ne.symm h]
    · by_cases h : t' = u
      · subst h
        simp [add, get, ht]
      · simp only [add, get, ht, if_false, List.find?_cons, h, decide_false]
        exact ih

theorem get_remove (branches : Branches) (t u : String) :
    (branches.remove t).get u = if u = t then [] else branches.get u := by
  by_cases h : u = t
  · subst h
    have hnone : (branches.remove u).find? (·.1 = u) = none := by
      rw [List.find?_eq_none]
      intro b hb
      simpa [remove] using (List.mem_filter.1 hb).2
    simp [get, hnone]
  · rw [if_neg h, get, get, remove, List.find?_filter]
    congr 3
    funext b
    by_cases hb : b.1 = u <;> simp [hb, h]

/-- The branches that are removed one after the other leave the others as they are. -/
theorem get_foldl_remove {t : String} : ∀ {types : List String} {branches : Branches}, t ∉ types →
    (types.foldl remove branches).get t = branches.get t
  | [], _, _ => rfl
  | u :: types, branches, h => by
    rw [List.mem_cons, not_or] at h
    rw [List.foldl_cons, get_foldl_remove h.2, get_remove, if_neg h.1]

/-- Among the selections of a type is what was there before, and what is added if the type is given it. -/
theorem mem_get_foldl_add {e x : Expanded} {u : String} (types : List String) (branches : Branches) :
    x ∈ (types.foldl (fun branches t => branches.add t e) branches).get u ↔
      x ∈ branches.get u ∨ u ∈ types ∧ x = e := by
  induction types generalizing branches with
  | nil => simp
  | cons t types ih =>
    rw [List.foldl_cons, ih, get_add]
    by_cases h : u = t
    · subst h
      simp only [if_true, List.mem_append, List.mem_cons, List.not_mem_nil, or_false, true_or, true_and]
      tauto
    · simp [h]

theorem get_foldl_add_iff {P : List Expanded → Prop} (hP : Expanded.Additive P) {e : Expanded} {u : String}
    (types : List String) (branches : Branches) :
    P ((types.foldl (fun branches t => branches.add t e) branches).get u) ↔
      P (branches.get u) ∨ u ∈ types ∧ P [e] := by
  rw [hP.iff_exists_mem, hP.iff_exists_mem (branches.get u)]
  simp only [mem_get_foldl_add, or_and_right, exists_or, and_assoc, exists_and_left, exists_eq_left]

theorem forall_mem_get_foldl_add {P : Expanded → Prop} {e : Expanded} {u : String} (types : List String)
    {branches : Branches} (hb : ∀ x ∈ branches.get u, P x) (he : u ∈ types → P e) :
    ∀ x ∈ (types.foldl (fun branches t => branches.add t e) branches).get u, P x := by
  intro x hx
  rcases (mem_get_foldl_add types branches).1 hx with hx | ⟨hu, rfl⟩
  · exact hb x hx
  · exact he hu

end Branches

namespace Expanded

theorem mem_matchedTypes {s : Schema} {condition site R : String} :
    R ∈ matchedTypes s condition site ↔ R ∈ s.possibleTypes site ∧ R ∈ s.possibleTypes condition := by
  simp [matchedTypes]

/-- The occurrences of a run-time type `R` while selections are split: those of the part that is
still common, under `conditional`, and those of the branch of `R`. -/
def OccursSplit (s : Schema) (R : String) (conditional : Bool) (common : List Expanded) (branches : Branches)
    (key name : String) (c : Bool) (sub : List Expanded) : Prop :=
  (∃ c', c = (conditional || c') ∧ Occurs (R ∈ s.possibleTypes ·) common key name c' sub) ∨
    Occurs (R ∈ s.possibleTypes ·) (branches.get R) key name c sub

theorem occursSplit_cons {s : Schema} {R : String} {conditional : Bool} {e : Expanded}
    {common : List Expanded} {branches : Branches} {key name : String} {c : Bool} {sub : List Expanded} :
    OccursSplit s R conditional (e :: common) branches key name c sub ↔
      (∃ c', c = (conditional || c') ∧ Occurs (R ∈ s.possibleTypes ·) [e] key name c' sub) ∨
        OccursSplit s R conditional common branches key name c sub := by
  unfold OccursSplit
  rw [← or_assoc, ← exists_or]
  refine or_congr (exists_congr fun c' => ?_) .rfl
  rw [occurs_cons, and_or_left]

/-- What a fragment that applies adds under `conditional`: its own flag joins it. -/
theorem occurs_fragment_under {applies : String → Prop} {label : FragmentLabel} {condition? : Option String}
    {conditional b : Bool} {inner : List Expanded} {key name : String} {c : Bool} {sub : List Expanded}
    (ha : ∀ t ∈ condition?, applies t) :
    (∃ c', c = (conditional || c') ∧ Occurs applies [fragment label condition? b inner] key name c' sub) ↔
      ∃ c', c = ((conditional || b) || c') ∧ Occurs applies inner key name c' sub := by
  simp only [occurs_fragment, Bool.or_assoc]
  constructor
  · rintro ⟨_, rfl, -, c', rfl, ho⟩
    exact ⟨c', rfl, ho⟩
  · rintro ⟨c', rfl, ho⟩
    exact ⟨_, rfl, ha, c', rfl, ho⟩

/-- What splitting does with each selection written in `scope`, from the branches before to those
after: a field stays, a fragment that covers the site stays with what stays of it, and another is
routed to the run-time types that it matches. -/
inductive Splits (s : Schema) (site : String) :
    String → Bool → List Expanded → Branches → List Expanded → Branches → Prop
  | nil {scope conditional branches} : Splits s site scope conditional [] branches [] branches
  | field {scope conditional key name c sub rest branches common branches'}
    (hr : Splits s site scope conditional rest branches common branches') :
    Splits s site scope conditional (field key name c sub :: rest) branches (field key name c sub :: common) branches'
  | cyclic {scope conditional name condition rest branches common branches'}
    (hr : Splits s site scope conditional rest ((matchedTypes s condition site).foldl (fun branches t =>
      branches.add t (fragment .inline (some condition) conditional [cyclic name condition])) branches)
      common branches') :
    Splits s site scope conditional (cyclic name condition :: rest) branches common branches'
  | kept {scope conditional label condition? c sub rest branches inner branches₁ common branches'}
    (hcov : s.covers (condition?.getD scope) site = true)
    (hin : Splits s site (condition?.getD scope) (conditional || c) sub branches inner branches₁)
    (hr : Splits s site scope conditional rest branches₁ common branches') :
    Splits s site scope conditional (fragment label condition? c sub :: rest) branches
      (fragment .inline (some (condition?.getD scope)) c inner :: common) branches'
  | routed {scope conditional label condition? c sub rest branches common branches'}
    (hcov : ¬ s.covers (condition?.getD scope) site = true)
    (hr : Splits s site scope conditional rest ((matchedTypes s (condition?.getD scope) site).foldl (fun branches t =>
      branches.add t (fragment .inline (some (condition?.getD scope)) (conditional || c) sub)) branches)
      common branches') :
    Splits s site scope conditional (fragment label condition? c sub :: rest) branches common branches'

theorem splits_of_splitInto {s : Schema} {site : String} :
    ∀ {selections : List Expanded} {scope : String} {conditional : Bool} {branches branches' : Branches}
      {common : List Expanded}, splitInto s site scope conditional selections branches = .ok (common, branches') →
      Splits s site scope conditional selections branches common branches'
  | [], _, _, _, _, _, h => by
    simp only [splitInto, Except.ok.injEq, Prod.mk.injEq] at h
    obtain ⟨rfl, rfl⟩ := h
    exact .nil
  | field _ _ _ _ :: rest, _, _, _, _, _, h => by
    simp only [splitInto] at h
    obtain ⟨⟨common₁, branches₁⟩, hrest, h⟩ := bind_eq_ok.1 h
    cases h
    exact .field (splits_of_splitInto hrest)
  | undefined _ :: rest, _, _, _, _, _, h => by simp [splitInto] at h
  | cyclic _ _ :: rest, _, _, _, _, _, h => by
    simp only [splitInto] at h
    obtain ⟨_, -, h⟩ := bind_eq_ok.1 h
    split at h
    next => cases h
    next => exact .cyclic (splits_of_splitInto h)
  | fragment _ _ _ sub :: rest, _, _, _, _, _, h => by
    simp only [splitInto] at h
    obtain ⟨_, -, h⟩ := bind_eq_ok.1 h
    split at h
    next hcov =>
      obtain ⟨⟨inner, branches₁⟩, hin, h⟩ := bind_eq_ok.1 h
      obtain ⟨⟨common₁, branches₂⟩, hrest, h⟩ := bind_eq_ok.1 h
      cases h
      exact .kept hcov (splits_of_splitInto hin) (splits_of_splitInto hrest)
    next hcov => exact .routed hcov (splits_of_splitInto h)

theorem splits_of_split {s : Schema} {site : String} {selections common : List Expanded} {branches : Branches}
    (h : split s site selections = .ok (common, branches)) :
    Splits s site site false selections [] common branches :=
  splits_of_splitInto h

/-- What holds of all selections, and still does where they are put into other fragments, holds of all in the common part
and in the branches. -/
theorem Splits.forall_mem {P : Expanded → Prop} (hopened : ∀ {label condition? c sub},
      P (fragment label condition? c sub) → ∀ e ∈ sub, P e)
    (hwrapped : ∀ {label condition? c sub label' condition?' c' sub'},
      P (fragment label condition? c sub) → (∀ e ∈ sub', P e) → P (fragment label' condition?' c' sub'))
    (hcyclic : ∀ {name condition c}, P (.cyclic name condition) →
      P (fragment .inline (some condition) c [.cyclic name condition]))
    {s : Schema} {site : String} {selections : List Expanded} {scope : String} {conditional : Bool}
    {branches branches' : Branches} {common : List Expanded}
    (h : Splits s site scope conditional selections branches common branches') (hall : ∀ e ∈ selections, P e)
    (hb : ∀ t, ∀ e ∈ branches.get t, P e) : (∀ e ∈ common, P e) ∧ ∀ t, ∀ e ∈ branches'.get t, P e := by
  induction h with
  | nil => exact ⟨hall, hb⟩
  | field _ ih =>
    obtain ⟨he, hrest⟩ := List.forall_mem_cons.1 hall
    exact (ih hrest hb).imp_left fun hc => List.forall_mem_cons.2 ⟨he, hc⟩
  | cyclic _ ih =>
    obtain ⟨he, hrest⟩ := List.forall_mem_cons.1 hall
    exact ih hrest fun t => Branches.forall_mem_get_foldl_add _ (hb t) fun _ => hcyclic he
  | kept _ _ _ ihin ihrest =>
    obtain ⟨he, hrest⟩ := List.forall_mem_cons.1 hall
    obtain ⟨hinner, hb₁⟩ := ihin (hopened he) hb
    exact (ihrest hrest hb₁).imp_left fun hc => List.forall_mem_cons.2 ⟨hwrapped he hinner, hc⟩
  | routed _ _ ih =>
    obtain ⟨he, hrest⟩ := List.forall_mem_cons.1 hall
    exact ih hrest fun t => Branches.forall_mem_get_foldl_add _ (hb t) fun _ => hwrapped he (hopened he)

/-- **Splitting neither loses nor invents a field of a run-time type**, and keeps its flag. -/
theorem Splits.occurs {s : Schema} {site R : String} (hR : R ∈ s.possibleTypes site) (key name : String)
    (c : Bool) (sub : List Expanded) {selections : List Expanded} {scope : String} {conditional : Bool}
    {branches branches' : Branches} {common : List Expanded} (hs : s.covers scope site = true)
    (h : Splits s site scope conditional selections branches common branches') :
    OccursSplit s R conditional common branches' key name c sub ↔
      OccursSplit s R conditional selections branches key name c sub := by
  induction h with
  | nil => exact .rfl
  | field _ ih => rw [occursSplit_cons, occursSplit_cons, ih hs]
  | cyclic _ ih =>
    rw [ih hs, occursSplit_cons]
    simp only [OccursSplit, Branches.get_foldl_add_iff additive_occurs, occurs_fragment, not_occurs_cyclic, and_false,
      exists_false, or_false, false_or]
  | @kept scope _ _ condition? _ _ _ _ _ _ _ _ hcov _ _ ihin ihrest =>
    have hap : ∀ t ∈ some (condition?.getD scope), R ∈ s.possibleTypes t := by
      rintro t ⟨⟩
      exact Schema.mem_possibleTypes_of_covers hcov hR
    have hap' : ∀ t ∈ condition?, R ∈ s.possibleTypes t := by
      rintro t ⟨⟩
      exact hap t rfl
    have ihin := ihin hcov
    have ihrest := ihrest hs
    rw [occursSplit_cons, occursSplit_cons, occurs_fragment_under hap, occurs_fragment_under hap', ihrest]
    unfold OccursSplit at ihin ⊢
    rw [or_left_comm, ihin, or_left_comm]
  | @routed _ _ _ condition? _ _ _ _ _ _ hcov _ ih =>
    rw [ih hs, occursSplit_cons]
    cases condition? with
    | none => exact absurd hs hcov
    | some t =>
      simp only [OccursSplit, Branches.get_foldl_add_iff additive_occurs, mem_matchedTypes, occurs_fragment, Option.mem_def,
        Option.some.injEq, forall_eq', Option.getD_some, Bool.or_assoc]
      constructor
      · rintro (ho | ho | ⟨-, ha, c', rfl, ho⟩)
        · exact .inr (.inl ho)
        · exact .inr (.inr ho)
        · exact .inl ⟨_, rfl, ha, c', rfl, ho⟩
      · rintro (⟨_, rfl, ha, c', rfl, ho⟩ | ho | ho)
        · exact .inr (.inr ⟨⟨hR, ha⟩, ha, c', rfl, ho⟩)
        · exact .inl ho
        · exact .inr (.inl ho)

/-- A field in fragments that cover the site stays in the common part. -/
theorem Splits.occurs_common {s : Schema} {site key name : String} {c : Bool} {sub selections : List Expanded}
    {scope : String} {conditional : Bool} {branches branches' : Branches} {common : List Expanded}
    (h : Splits s site scope conditional selections branches common branches') (hs : s.covers scope site = true)
    (ho : Occurs (s.covers · site = true) selections key name c sub) :
    Occurs (s.covers · site = true) common key name c sub := by
  induction h generalizing c with
  | nil => exact absurd ho not_occurs_nil
  | field _ ih =>
    rw [occurs_cons] at ho ⊢
    exact ho.imp_right (ih hs)
  | cyclic _ ih =>
    rw [occurs_cons, or_iff_right not_occurs_cyclic] at ho
    exact ih hs ho
  | kept hcov _ _ ihin ihrest =>
    rw [occurs_cons, occurs_fragment] at ho ⊢
    refine ho.imp ?_ (ihrest hs)
    rintro ⟨-, c', rfl, hbelow⟩
    refine ⟨?_, c', rfl, ihin hcov hbelow⟩
    rintro t ⟨⟩
    exact hcov
  | @routed _ _ _ condition? _ _ _ _ _ _ hcov _ ih =>
    rw [occurs_cons, occurs_fragment] at ho
    refine ih hs (ho.resolve_left fun ⟨ha, _⟩ => hcov ?_)
    cases condition? with
    | none => exact hs
    | some t => exact ha t rfl

/-- A field of the common part is one of the selections, in fragments that cover the site: no others stay. -/
theorem Splits.occurs_of_common {s : Schema} {site key name : String} {c : Bool} {sub selections : List Expanded}
    {scope : String} {conditional : Bool} {branches branches' : Branches} {common : List Expanded}
    (h : Splits s site scope conditional selections branches common branches') {applies : String → Prop}
    (ho : Occurs applies common key name c sub) : Occurs (s.covers · site = true) selections key name c sub := by
  induction h generalizing c with
  | nil => exact absurd ho not_occurs_nil
  | field _ ih =>
    rw [occurs_cons, occurs_field] at ho ⊢
    exact ho.imp_right ih
  | cyclic _ ih => exact occurs_cons.2 (.inr (ih ho))
  | @kept _ _ _ condition? _ _ _ _ _ _ _ _ hcov _ _ ihin ihrest =>
    rw [occurs_cons, occurs_fragment] at ho ⊢
    refine ho.imp ?_ ihrest
    rintro ⟨-, c', rfl, hbelow⟩
    refine ⟨?_, c', rfl, ihin hbelow⟩
    rintro t ⟨⟩
    exact hcov
  | routed _ _ ih => exact occurs_cons.2 (.inr (ih ho))

/-! ## What a run-time type finds -/

/-- The run-time type `R` finds the same fields in both. -/
def SameFor (s : Schema) (R : String) (selections more : List Expanded) : Prop :=
  ∀ key name c sub, Occurs (R ∈ s.possibleTypes ·) selections key name c sub ↔
    Occurs (R ∈ s.possibleTypes ·) more key name c sub

/-- Collection on `site` finds what its run-time type `R` finds. -/
def Uniform (s : Schema) (site R : String) (selections : List Expanded) : Prop :=
  ∀ key name c sub, Occurs (s.covers · site = true) selections key name c sub ↔
    Occurs (R ∈ s.possibleTypes ·) selections key name c sub

theorem uniform_object {s : Schema} {R : String} {o : ObjectDefinition} (h : s.find? R = some (.object o))
    (selections : List Expanded) : Uniform s R R selections := by
  intro key name c sub
  simp only [Schema.covers_object h]

/-- What a run-time type of the site finds in the selections is in the common part and its branch. -/
theorem split_sameFor {s : Schema} {site R : String} (hR : R ∈ s.possibleTypes site)
    {selections common : List Expanded} {branches : Branches}
    (h : split s site selections = .ok (common, branches)) :
    SameFor s R (common ++ branches.get R) selections := by
  intro key name c sub
  have := (splits_of_split h).occurs hR key name c sub (s.covers_refl site)
  simpa [OccursSplit, Branches.get, occurs_append] using this

/-- The common part is the same for the site and for its run-time types. -/
theorem split_uniform {s : Schema} {site R : String} (hR : R ∈ s.possibleTypes site)
    {selections common : List Expanded} {branches : Branches}
    (h : split s site selections = .ok (common, branches)) : Uniform s site R common :=
  fun _ _ _ _ => ⟨fun ho => ho.imp fun _ hc => Schema.mem_possibleTypes_of_covers hc hR, fun ho =>
    (splits_of_split h).occurs_common (s.covers_refl site) ((splits_of_split h).occurs_of_common ho)⟩

end Expanded

end TypedQuery
