/-
The fields that are resolved below a field. `Below` are the calls that
resolving a field makes of the resolver: through the shape of an object, the
common part of an abstract type, or one of its variants. The selections it
passes on are no part of those it was given, since they are merged, marked
and split on the way; but fields stand inside each other less deep in them
(`Below.levels_lt`), so that calls end (`wellFounded_below`). There are no
other calls: resolvers that agree below a field resolve it alike
(`fieldTypeOver_congr`).
-/
import TypedQuery.Proofs.ShapeRuns

namespace TypedQuery

open Generator

/-! ## Levels -/

namespace Expanded

theorem levels_pos (e : Expanded) : 1 ≤ e.levels := by
  cases e with
  | field => simp [levels]
  | fragment => exact Nat.le_max_left _ _
  | undefined => simp [levels]
  | cyclic => simp [levels]

theorem levelsOf_le_iff {selections : List Expanded} {n : Nat} :
    levelsOf selections ≤ n ↔ ∀ e ∈ selections, e.levels ≤ n := by
  induction selections with
  | nil => simp [levelsOf]
  | cons e rest ih => rw [levelsOf, Nat.max_le, ih, List.forall_mem_cons]

theorem levelsOf_append_le {selections more : List Expanded} {n : Nat} :
    levelsOf (selections ++ more) ≤ n ↔ levelsOf selections ≤ n ∧ levelsOf more ≤ n := by
  simp only [levelsOf_le_iff, List.mem_append, or_imp, forall_and]

theorem levelsOf_pos {selections : List Expanded} (h : selections ≠ []) : 1 ≤ levelsOf selections := by
  obtain ⟨e, rest, rfl⟩ := List.exists_cons_of_ne_nil h
  exact Nat.le_trans e.levels_pos (levelsOf_le_iff.1 (Nat.le_refl _) e List.mem_cons_self)

/-- A mark around selections adds no level. -/
theorem levelsOf_marked {selections : List Expanded} (h : selections ≠ []) (conditional : Bool) :
    levelsOf (CollectedField.marked conditional selections) = levelsOf selections := by
  have hpos := levelsOf_pos h
  unfold CollectedField.marked markConditional
  split
  · split
    · rfl
    · simp only [levelsOf, levels]
      omega
  · rfl

/-- What is selected below a field that occurs has fewer levels. -/
theorem Occurs.levels_lt {applies : String → Prop} {selections sub : List Expanded} {key name : String} {c : Bool}
    (h : Occurs applies selections key name c sub) : levelsOf sub < levelsOf selections := by
  induction h with
  | field h =>
    have := levelsOf_le_iff.1 (Nat.le_refl _) _ h
    simp only [levels] at this
    omega
  | fragment h _ _ ih =>
    have := levelsOf_le_iff.1 (Nat.le_refl _) _ h
    simp only [levels] at this
    omega

/-- What is selected below a collected field has fewer levels. -/
theorem collect_levels_lt {s : Schema} {site : String} {selections : List Expanded} {fields : List CollectedField}
    (h : collect s site selections = .ok fields) {f : CollectedField} (hf : f ∈ fields) :
    levelsOf f.selections < levelsOf selections := by
  have hmerged := merged_of_collect h
  have hlt : ∀ o ∈ fieldsIn (s.covers · site) site false selections, levelsOf o.selections < levelsOf selections := by
    intro o ho
    obtain ⟨c, hocc, -⟩ := occurs_of_mem_fieldsIn ho
    exact hocc.levels_lt
  have hle : levelsOf f.selections ≤ levelsOf selections - 1 := by
    refine levelsOf_le_iff.2 ((hmerged.forall_selections_iff (fun hne => ?_) hf).2 fun o ho _ => ?_)
    · rw [← levelsOf_le_iff, ← levelsOf_le_iff, levelsOf_marked hne]
    · exact levelsOf_le_iff.1 (Nat.le_sub_one_of_lt (hlt o ho))
  obtain ⟨o, ho, -⟩ := hmerged.first hf
  have hpos := hlt o ho
  omega

/-- Splitting adds no level, neither in the common part nor in a branch. -/
theorem split_levels {s : Schema} {site : String} {selections common : List Expanded} {branches : Branches}
    (h : split s site selections = .ok (common, branches)) :
    levelsOf common ≤ levelsOf selections ∧ ∀ t, levelsOf (branches.get t) ≤ levelsOf selections := by
  simp only [levelsOf_le_iff]
  refine (splits_of_split h).forall_mem ?_ ?_ ?_ (levelsOf_le_iff.1 (Nat.le_refl _)) (by simp [Branches.get])
  · intro label condition? c sub hle
    rw [levels, Nat.max_le] at hle
    exact levelsOf_le_iff.1 hle.2
  · intro label condition? c sub label' condition?' c' sub' hle hsub
    rw [levels, Nat.max_le] at hle ⊢
    exact ⟨hle.1, levelsOf_le_iff.2 hsub⟩
  · intro name condition c hle
    simpa [levels, levelsOf] using hle

end Expanded

namespace Schema

/-! ## Calls -/

/-- Selections on `type`, which declares `fields`, select the field `g` with `sub` below it. -/
def Selects (s : Schema) (type : String) (fields : List FieldDefinition) (selections : List Expanded)
    (g : FieldDefinition) (sub : List Expanded) : Prop :=
  ∃ collected f, Expanded.collect s type selections = .ok collected ∧ f ∈ collected ∧
    s.declaration? fields f = some g ∧ f.selections = sub

/-- To resolve the field `f` as selected with `selections`, the field `g` is resolved with `sub`. Of
a run-time type that is possible twice, the second variant has no branch. -/
inductive Below (s : Schema) (f : FieldDefinition) (selections : List Expanded) (g : FieldDefinition)
    (sub : List Expanded) : Prop
  | object {o} (h : s.find? f.type.baseName = some (.object o))
    (hs : s.Selects o.name o.fields selections g sub) : Below s f selections g sub
  | common {site common branches} (h : s.find? f.type.baseName = some site)
    (hk : site.kind = .interface ∨ site.kind = .union)
    (hsplit : Expanded.split s site.name selections = .ok (common, branches))
    (hs : s.Selects site.name site.fields common g sub) : Below s f selections g sub
  | variant {site common branches R o branch} (h : s.find? f.type.baseName = some site)
    (hk : site.kind = .interface ∨ site.kind = .union)
    (hsplit : Expanded.split s site.name selections = .ok (common, branches))
    (hR : R ∈ s.possibleTypes site.name) (ho : s.find? R = some (.object o))
    (hb : branch = branches.get R ∨ branch = []) (hs : s.Selects o.name o.fields (common ++ branch) g sub) :
    Below s f selections g sub

theorem Selects.levels_lt {s : Schema} {type : String} {fields : List FieldDefinition}
    {selections sub : List Expanded} {g : FieldDefinition} (h : s.Selects type fields selections g sub) :
    Expanded.levelsOf sub < Expanded.levelsOf selections := by
  obtain ⟨collected, f, hc, hf, -, rfl⟩ := h
  exact Expanded.collect_levels_lt hc hf

/-- A call passes on selections with fewer levels. -/
theorem Below.levels_lt {s : Schema} {f g : FieldDefinition} {selections sub : List Expanded}
    (h : s.Below f selections g sub) : Expanded.levelsOf sub < Expanded.levelsOf selections := by
  cases h with
  | object _ hs => exact hs.levels_lt
  | common _ _ hsplit hs => exact Nat.lt_of_lt_of_le hs.levels_lt (Expanded.split_levels hsplit).1
  | @variant _ _ _ R _ _ _ _ hsplit _ _ hb hs =>
    obtain ⟨hc, hbranches⟩ := Expanded.split_levels hsplit
    refine Nat.lt_of_lt_of_le hs.levels_lt (Expanded.levelsOf_append_le.2 ⟨hc, ?_⟩)
    rcases hb with rfl | rfl
    · exact hbranches R
    · simp [Expanded.levelsOf]

/-- **Calls end**: no field is resolved below itself without end, whatever the schema says. -/
theorem wellFounded_below (s : Schema) :
    WellFounded fun callee caller : FieldDefinition × List Expanded => s.Below caller.1 caller.2 callee.1 callee.2 :=
  Subrelation.wf (fun h => Below.levels_lt h) (measure fun call : FieldDefinition × List Expanded => Expanded.levelsOf call.2).wf

end Schema

/-! ## Resolvers that agree -/

theorem mapM_congr {α β : Type} {f g : α → Generator β} :
    ∀ {l : List α}, (∀ a ∈ l, f a = g a) → l.mapM f = l.mapM g
  | [], _ => rfl
  | a :: l, h => by
    rw [List.mapM_cons, List.mapM_cons, h a List.mem_cons_self,
      mapM_congr fun b hb => h b (List.mem_cons_of_mem _ hb)]

/-- What follows a computation of no effect matters only for its result. -/
theorem liftExcept_bind_congr {α β : Type} {r : Except GenerationError α} {f g : α → Generator β}
    (h : ∀ a, r = .ok a → f a = g a) : (register.liftExcept r >>= f) = register.liftExcept r >>= g := by
  cases r with
  | error e => rfl
  | ok a =>
    simp only [register.liftExcept, pure_bind]
    exact h a rfl

namespace Schema

variable {s : Schema} {resolve resolve' : FieldResolver}

theorem properties_congr {type : String} {fields : List FieldDefinition} {selections : List Expanded}
    (h : ∀ g sub, s.Selects type fields selections g sub → resolve g sub = resolve' g sub) :
    s.properties resolve type fields selections = s.properties resolve' type fields selections := by
  refine liftExcept_bind_congr fun collected hc => mapM_congr fun f hf => ?_
  unfold property
  split
  next => rfl
  next g hg => rw [h g f.selections ⟨collected, f, hc, hf, hg, rfl⟩]

theorem objectShape_congr {o : ObjectDefinition} {selections : List Expanded} {name? : Option String}
    (h : ∀ g sub, s.Selects o.name o.fields selections g sub → resolve g sub = resolve' g sub) :
    s.objectShape resolve o selections name? = s.objectShape resolve' o selections name? := by
  unfold objectShape
  rw [properties_congr h]

theorem variants_congr {common : List Expanded} : ∀ {types : List String} {branches : Branches},
    (∀ R ∈ types, ∀ o, s.find? R = some (.object o) → ∀ branch, branch = branches.get R ∨ branch = [] →
      ∀ g sub, s.Selects o.name o.fields (common ++ branch) g sub → resolve g sub = resolve' g sub) →
    s.variants resolve common branches types = s.variants resolve' common branches types
  | [], _, _ => by rw [variants, variants]
  | t :: types, branches, h => by
    have hrest : s.variants resolve common (branches.remove t) types =
        s.variants resolve' common (branches.remove t) types := by
      refine variants_congr fun R hR o ho branch hb => h R (List.mem_cons_of_mem _ hR) o ho branch ?_
      rw [Branches.get_remove] at hb
      split at hb
      · exact .inr (hb.elim id id)
      · exact hb
    rw [variants, variants, hrest]
    split
    · rfl
    · refine liftExcept_bind_congr fun d hd => ?_
      cases d with
      | object o =>
        dsimp only
        rw [objectShape_congr fun g sub hs =>
          h t List.mem_cons_self o (resolve_eq_ok.1 hd) _ (.inl rfl) g sub hs]
      | scalar | enumeration | interface | union | input => rfl

theorem abstractShape_congr {site : TypeDefinition} {selections : List Expanded} {name? : Option String}
    (hcommon : ∀ common branches, Expanded.split s site.name selections = .ok (common, branches) →
      ∀ g sub, s.Selects site.name site.fields common g sub → resolve g sub = resolve' g sub)
    (hvariant : ∀ common branches, Expanded.split s site.name selections = .ok (common, branches) →
      ∀ R ∈ s.possibleTypes site.name, ∀ o, s.find? R = some (.object o) →
        ∀ branch, branch = branches.get R ∨ branch = [] →
          ∀ g sub, s.Selects o.name o.fields (common ++ branch) g sub → resolve g sub = resolve' g sub) :
    s.abstractShape resolve site selections name? = s.abstractShape resolve' site selections name? := by
  unfold abstractShape
  extract_lets rest rest'
  have hrest : rest = rest' := by
    funext u
    refine liftExcept_bind_congr fun ⟨common, branches⟩ hsplit => ?_
    dsimp only
    rw [properties_congr (hcommon common branches hsplit), variants_congr (hvariant common branches hsplit)]
  rw [hrest]

/-- **There are no other calls**: resolvers that agree on the calls below a field resolve it alike. -/
theorem fieldTypeOver_congr {f : FieldDefinition} {selections : List Expanded}
    (h : ∀ g sub, s.Below f selections g sub → resolve g sub = resolve' g sub) :
    s.fieldTypeOver resolve f selections = s.fieldTypeOver resolve' f selections := by
  refine liftExcept_bind_congr fun d hd => ?_
  have hfind : s.find? f.type.baseName = some d := resolve_eq_ok.1 hd
  cases d with
  | object o =>
    dsimp only
    rw [objectShape_congr fun g sub hs => h g sub (.object hfind hs)]
  | interface d =>
    dsimp only
    rw [abstractShape_congr (fun _ _ hsplit g sub hs => h g sub (.common hfind (.inl rfl) hsplit hs))
      fun _ _ hsplit _ hR _ ho _ hb g sub hs => h g sub (.variant hfind (.inl rfl) hsplit hR ho hb hs)]
  | union d =>
    dsimp only
    rw [abstractShape_congr (fun _ _ hsplit g sub hs => h g sub (.common hfind (.inr rfl) hsplit hs))
      fun _ _ hsplit _ hR _ ho _ hb g sub hs => h g sub (.variant hfind (.inr rfl) hsplit hR ho hb hs)]
  | scalar | enumeration | input => rfl

end Schema

end TypedQuery
