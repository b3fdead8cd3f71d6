/-
Runs on selections that differ in labels. `Alike R x y` says that two
generators do the same from every progress: they leave the same, and return
results that `R` relates or errors that differ in a label at most. Generators
of output shapes that are given `Relabels` selections are alike, one lemma for
each and an induction over the levels for the resolver (`fieldType_blind`).
-/
import TypedQuery.Proofs.Relabelling
import TypedQuery.Proofs.ShapeRuns

namespace TypedQuery

open Generator

namespace Generator

variable {α β γ δ : Type} {R : α → β → Prop} {S : γ → δ → Prop}

/-- From every progress, `x` and `y` leave the same, and what they return is alike. -/
def Alike (R : α → β → Prop) (x : Generator α) (y : Generator β) : Prop :=
  ∀ p, (outcome x p).2 = (outcome y p).2 ∧ ResultsAlike R (outcome x p).1 (outcome y p).1

theorem Alike.refl (x : Generator α) : Alike Eq x x := fun _ => ⟨rfl, .refl _⟩

theorem alike_pure {a : α} {b : β} (h : R a b) : Alike R (pure a) (pure b) := fun _ => ⟨rfl, .ok h⟩

theorem alike_throw (e : GenerationError) : Alike R (throw e) (throw e) := fun _ => ⟨rfl, .error (.same e)⟩

theorem alike_liftExcept {x : Except GenerationError α} {y : Except GenerationError β} (h : ResultsAlike R x y) :
    Alike R (register.liftExcept x) (register.liftExcept y) := fun p => by
  rw [outcome_liftExcept, outcome_liftExcept]
  exact ⟨rfl, h⟩

theorem Alike.bind {x : Generator α} {y : Generator β} {f : α → Generator γ} {g : β → Generator δ}
    (h : Alike R x y) (hf : ∀ a b, R a b → Alike S (f a) (g b)) : Alike S (x >>= f) (y >>= g) := fun p => by
  have hp := h p
  rw [outcome_bind, outcome_bind]
  rcases hx : outcome x p with ⟨r, q⟩
  rcases hy : outcome y p with ⟨r', q'⟩
  rw [hx, hy] at hp
  obtain ⟨rfl, hr⟩ : q = q' ∧ ResultsAlike R r r' := hp
  cases hr with
  | ok hab => exact hf _ _ hab q
  | error he => exact ⟨rfl, .error he⟩

theorem Alike.map {x : Generator α} {y : Generator β} {f : α → γ} {g : β → δ} (h : Alike R x y)
    (hf : ∀ a b, R a b → S (f a) (g b)) : Alike S (f <$> x) (g <$> y) := by
  rw [map_eq_pure_bind, map_eq_pure_bind]
  exact h.bind fun a b hab => alike_pure (hf a b hab)

theorem alike_mapM {f : α → Generator γ} {g : β → Generator δ} (hf : ∀ a b, R a b → Alike S (f a) (g b))
    {as : List α} {bs : List β} (h : List.Forall₂ R as bs) :
    Alike (List.Forall₂ S) (as.mapM f) (bs.mapM g) := by
  induction h with
  | nil =>
    rw [List.mapM_nil, List.mapM_nil]
    exact alike_pure .nil
  | cons hab _ ih =>
    rw [List.mapM_cons, List.mapM_cons]
    exact (hf _ _ hab).bind fun _ _ hcd => ih.bind fun _ _ hrest => alike_pure (.cons hcd hrest)

end Generator

namespace Schema

/-- The resolver resolves a field alike whatever the labels below it. -/
def Blind (resolve : FieldResolver) : Prop :=
  ∀ f {selections selections'}, Expanded.Relabels selections selections' →
    Alike Eq (resolve f selections) (resolve f selections')

section Blind

variable {s : Schema} {resolve : FieldResolver}

theorem property_alike (hres : Blind resolve) (type : String) (fields : List FieldDefinition) {f f' : CollectedField}
    (h : f.Relabels f') : Alike Eq (s.property resolve type fields f) (s.property resolve type fields f') := by
  unfold property declaration?
  rw [← h.name, ← h.scope, ← h.key, ← h.conditional]
  split
  · exact alike_throw _
  · refine (hres _ h.selections).bind fun _ _ ht => ?_
    subst ht
    exact .refl _

theorem properties_alike (hres : Blind resolve) (type : String) (fields : List FieldDefinition)
    {selections selections' : List Expanded} (h : Expanded.Relabels selections selections') :
    Alike Eq (s.properties resolve type fields selections) (s.properties resolve type fields selections') := by
  refine (alike_liftExcept (Expanded.collect_alike h)).bind fun fields₁ fields₂ hfields => ?_
  rw [← List.forall₂_eq_eq_eq]
  exact alike_mapM (fun _ _ hf => property_alike hres type fields hf) hfields

theorem objectShape_alike (hres : Blind resolve) (o : ObjectDefinition) {selections selections' : List Expanded}
    (h : Expanded.Relabels selections selections') (name? : Option String) :
    Alike Eq (s.objectShape resolve o selections name?) (s.objectShape resolve o selections' name?) := by
  unfold objectShape
  rw [h.isEmpty_eq]
  have hrest : Alike Eq (s.properties resolve o.name o.fields selections >>= fun properties =>
        register ⟨o.name, o.name, .object, o.description?, properties⟩ name?)
      (s.properties resolve o.name o.fields selections' >>= fun properties =>
        register ⟨o.name, o.name, .object, o.description?, properties⟩ name?) := by
    refine (properties_alike hres _ _ h).bind fun _ _ hqs => ?_
    subst hqs
    exact .refl _
  split
  · exact (alike_throw (R := Eq) _).bind fun _ _ _ => hrest
  · exact hrest

theorem variants_alike (hres : Blind resolve) {common common' : List Expanded}
    (hcommon : Expanded.Relabels common common') : ∀ (types : List String) {branches branches' : Branches},
      Branches.Relabels branches branches' →
      Alike Eq (s.variants resolve common branches types) (s.variants resolve common' branches' types)
  | [], _, _, _ => by
    rw [variants, variants]
    exact .refl _
  | t :: types, branches, branches', hb => by
    have hselections := hcommon.append (Branches.relabels_get hb t)
    have hrest := variants_alike hres hcommon types (Branches.relabels_remove hb t)
    rw [variants, variants, hselections.isEmpty_eq]
    split
    · exact hrest
    · refine (Alike.refl _).bind fun d d' hd => ?_
      subst hd
      cases d with
      | object o =>
        refine (objectShape_alike hres o hselections none).bind fun _ _ hn => hrest.bind fun _ _ hvs => ?_
        subst hn hvs
        exact .refl _
      | scalar | enumeration | interface | union | input => exact hrest

theorem returnsTypename_eq {fields fields' : List CollectedField}
    (h : List.Forall₂ CollectedField.Relabels fields fields') : returnsTypename fields = returnsTypename fields' := by
  induction h with
  | nil => rfl
  | cons hf _ ih => exact congrArg₂ or (by simp only [hf.key, hf.name, hf.conditional]) ih

theorem abstractShape_alike (hres : Blind resolve) (site : TypeDefinition) {selections selections' : List Expanded}
    (h : Expanded.Relabels selections selections') (name? : Option String) :
    Alike Eq (s.abstractShape resolve site selections name?) (s.abstractShape resolve site selections' name?) := by
  unfold abstractShape
  rw [h.isEmpty_eq]
  extract_lets rest rest'
  have hrest : Alike Eq (rest ()) (rest' ()) := by
    refine (alike_liftExcept (Expanded.split_alike h)).bind fun parts parts' hparts => ?_
    refine (properties_alike hres _ _ hparts.1).bind fun qs _ hqs => ?_
    subst hqs
    extract_lets keep
    have hkeep : ∀ vs vs', vs = vs' → Alike Eq (keep vs) (keep vs') := by
      rintro vs _ rfl
      exact .refl _
    rw [Branches.relabels_isEmpty hparts.2]
    split
    · exact (Alike.refl _).bind hkeep
    · refine (alike_liftExcept (Expanded.collect_alike hparts.1)).bind fun _ _ hfields => ?_
      rw [returnsTypename_eq hfields]
      split
      · exact (variants_alike hres hparts.1 _ hparts.2).bind hkeep
      · exact (alike_throw (R := Eq) _).bind hkeep
  split
  · exact (alike_throw (R := Eq) _).bind fun _ _ _ => hrest
  · exact hrest

theorem fieldTypeOver_blind (hres : Blind resolve) : Blind (s.fieldTypeOver resolve) := by
  intro f selections selections' h
  refine (Alike.refl _).bind fun d d' hd => ?_
  subst hd
  extract_lets wrap
  have hwrap : ∀ base base', base = base' → Alike Eq (wrap base) (wrap base') := by
    rintro base _ rfl
    exact .refl _
  cases d with
  | scalar | enumeration | input => exact (Alike.refl _).bind hwrap
  | object d => exact ((objectShape_alike hres d h none).map fun _ _ => congrArg _).bind hwrap
  | interface d => exact ((abstractShape_alike hres (.interface d) h none).map fun _ _ => congrArg _).bind hwrap
  | union d => exact ((abstractShape_alike hres (.union d) h none).map fun _ _ => congrArg _).bind hwrap

/-- Labels decide nothing but errors, at any depth. -/
theorem fieldType_blind (s : Schema) (levels : Nat) : Blind (s.fieldType levels) :=
  fieldType_induct (fun _ _ _ _ => alike_throw _) (fun _ hres => fieldTypeOver_blind hres) levels

end Blind

end Schema

end TypedQuery
