/-
Runs of generators: what a step of a run returns and the progress it leaves,
composed through `bind`, `tryCatch` and `mapM`. `Runs x p a p'` says that `x`
succeeds from `p`; `Generator.Grows` is about every end of `x`, errors too:
the registry only gets longer, and the input objects being expanded are those
from before.
-/
import TypedQuery.Generation
import TypedQuery.Proofs.RegistryFacts

namespace TypedQuery

/-- `p'` comes after `p`: no shape of `p` is gone, and `p'` is inside the same input objects. -/
structure Progress.Grows (p p' : Progress) : Prop where
  registry : p'.registry.Extends p.registry
  expanding : p'.expanding = p.expanding

theorem Progress.Grows.refl (p : Progress) : p.Grows p := ⟨.refl _, rfl⟩

theorem Progress.Grows.trans {p p₁ p₂ : Progress} (h₁ : p.Grows p₁) (h₂ : p₁.Grows p₂) : p.Grows p₂ :=
  ⟨h₂.registry.trans h₁.registry, h₂.expanding.trans h₁.expanding⟩

theorem exists_of_forall₂_right {α β : Type} {R : α → β → Prop} {as : List α} {bs : List β}
    (h : List.Forall₂ R as bs) {b : β} (hb : b ∈ bs) : ∃ a ∈ as, R a b := by
  induction h with
  | nil => simp at hb
  | cons hab _ ih =>
    rcases List.mem_cons.1 hb with rfl | hb
    · exact ⟨_, List.mem_cons_self, hab⟩
    · obtain ⟨a, ha, hr⟩ := ih hb
      exact ⟨a, List.mem_cons_of_mem _ ha, hr⟩

theorem exists_of_forall₂_left {α β : Type} {R : α → β → Prop} {as : List α} {bs : List β}
    (h : List.Forall₂ R as bs) {a : α} (ha : a ∈ as) : ∃ b ∈ bs, R a b :=
  exists_of_forall₂_right h.flip ha

theorem forall₂_imp_mem {α β : Type} {R S : α → β → Prop} {as : List α} {bs : List β}
    (h : List.Forall₂ R as bs) (himp : ∀ a ∈ as, ∀ b, R a b → S a b) : List.Forall₂ S as bs := by
  induction h with
  | nil => exact .nil
  | cons hab _ ih =>
    exact .cons (himp _ List.mem_cons_self _ hab) (ih fun a ha => himp a (List.mem_cons_of_mem _ ha))

namespace Generator

variable {α β : Type} {x : Generator α} {p p' : Progress}

/-- What `x` returns from `p`, and the progress it leaves. -/
def outcome (x : Generator α) (p : Progress) : Except GenerationError α × Progress := x.run p

/-- From `p`, `x` returns `a` and leaves `p'`. -/
def Runs (x : Generator α) (p : Progress) (a : α) (p' : Progress) : Prop := outcome x p = (.ok a, p')

/-- However `x` ends, it leaves a progress after the one it started from. -/
def Grows (x : Generator α) : Prop := ∀ p : Progress, p.Grows (outcome x p).2

/-! ## Outcomes, construct by construct -/

@[simp] theorem outcome_pure {a : α} : outcome (pure a : Generator α) p = (.ok a, p) := rfl
@[simp] theorem outcome_throw {e : GenerationError} : outcome (throw e : Generator α) p = (.error e, p) := rfl
@[simp] theorem outcome_get : outcome (get : Generator Progress) p = (.ok p, p) := rfl
@[simp] theorem outcome_set {q : Progress} : outcome (set q : Generator PUnit) p = (.ok ⟨⟩, q) := rfl
@[simp] theorem outcome_modify {g : Progress → Progress} :
    outcome (modify g : Generator PUnit) p = (.ok ⟨⟩, g p) := rfl

@[simp] theorem outcome_liftExcept {r : Except GenerationError α} :
    outcome (register.liftExcept r) p = (r, p) := by
  cases r <;> rfl

theorem outcome_bind (x : Generator α) (f : α → Generator β) (p : Progress) :
    outcome (x >>= f) p = match outcome x p with
      | (.ok a, p₁) => outcome (f a) p₁
      | (.error e, p₁) => (.error e, p₁) := by
  rcases h : outcome x p with ⟨r, p₁⟩
  have hx : x p = (r, p₁) := h
  cases r
  · simp [outcome, bind, ExceptT.bind, ExceptT.mk, ExceptT.bindCont, StateT.bind, ExceptT.run, hx]
    rfl
  · simp [outcome, bind, ExceptT.bind, ExceptT.mk, ExceptT.bindCont, StateT.bind, ExceptT.run, hx]

theorem outcome_tryCatch (x : Generator α) (f : GenerationError → Generator α) (p : Progress) :
    outcome (tryCatch x f) p = match outcome x p with
      | (.ok a, p₁) => (.ok a, p₁)
      | (.error e, p₁) => outcome (f e) p₁ := by
  rcases h : outcome x p with ⟨r, p₁⟩
  have hx : x p = (r, p₁) := h
  cases r
  · simp [outcome, tryCatch, tryCatchThe, MonadExceptOf.tryCatch, ExceptT.tryCatch, ExceptT.mk,
      ExceptT.run, bind, StateT.bind, hx]
  · simp [outcome, tryCatch, tryCatchThe, MonadExceptOf.tryCatch, ExceptT.tryCatch, ExceptT.mk,
      ExceptT.run, bind, StateT.bind, hx]
    rfl

/-! ## Runs that succeed -/

theorem runs_of_outcome {a : α} (h : (outcome x p).1 = .ok a) : Runs x p a (outcome x p).2 := Prod.ext h rfl

theorem runs_bind {f : α → Generator β} {b : β} :
    Runs (x >>= f) p b p' ↔ ∃ a p₁, Runs x p a p₁ ∧ Runs (f a) p₁ b p' := by
  simp only [Runs, outcome_bind]
  rcases outcome x p with ⟨r | r, p₁⟩ <;> simp

@[simp] theorem runs_pure {a b : α} : Runs (pure a : Generator α) p b p' ↔ a = b ∧ p = p' := by
  simp [Runs]

@[simp] theorem runs_throw {e : GenerationError} {a : α} : ¬ Runs (throw e : Generator α) p a p' := by
  simp [Runs]

@[simp] theorem runs_get {q : Progress} : Runs (get : Generator Progress) p q p' ↔ p = q ∧ p = p' := by
  simp [Runs]

@[simp] theorem runs_set {q : Progress} {u : PUnit} : Runs (set q : Generator PUnit) p u p' ↔ q = p' := by
  simp [Runs]

@[simp] theorem runs_liftExcept {r : Except GenerationError α} {a : α} :
    Runs (register.liftExcept r) p a p' ↔ r = .ok a ∧ p = p' := by
  simp [Runs]

theorem runs_map {f : α → β} {b : β} : Runs (f <$> x) p b p' ↔ ∃ a, Runs x p a p' ∧ f a = b := by
  rw [map_eq_pure_bind, runs_bind]
  simp

theorem Grows.runs (hx : Grows x) {a : α} (h : Runs x p a p') : p.Grows p' := by
  have := hx p
  rwa [h] at this

/-! ## Properties that composition keeps -/

/-- `P` holds of what has no effect, of registering, and of two steps one after the other if it holds
of both. -/
structure Closed (P : (α : Type) → Generator α → Prop) : Prop where
  pure : ∀ {α : Type} (a : α), P α (pure a)
  throw : ∀ {α : Type} (e : GenerationError), P α (throw e)
  bind : ∀ {α β : Type} {x : Generator α} {f : α → Generator β}, P α x → (∀ a, P β (f a)) → P β (x >>= f)
  register : ∀ (shape : Shape) (name? : Option String), P String (register shape name?)

section Closed

variable {P : (α : Type) → Generator α → Prop}

theorem Closed.liftExcept (hP : Closed P) (r : Except GenerationError α) : P α (register.liftExcept r) := by
  cases r with
  | ok a => exact hP.pure a
  | error e => exact hP.throw e

theorem Closed.map (hP : Closed P) {f : α → β} (hx : P α x) : P β (f <$> x) := by
  rw [map_eq_pure_bind]
  exact hP.bind hx fun _ => hP.pure _

theorem Closed.mapM (hP : Closed P) {f : α → Generator β} (hf : ∀ a, P β (f a)) : ∀ l : List α, P (List β) (l.mapM f)
  | [] => by simpa using hP.pure []
  | a :: l => by
    rw [List.mapM_cons]
    exact hP.bind (hf a) fun _ => hP.bind (hP.mapM hf l) fun _ => hP.pure _

end Closed

/-! ## Growth -/

theorem grows_pure {a : α} : Grows (pure a : Generator α) := fun p => .refl p

theorem grows_throw {e : GenerationError} : Grows (throw e : Generator α) := fun p => .refl p

theorem Grows.bind {f : α → Generator β} (hx : Grows x) (hf : ∀ a, Grows (f a)) : Grows (x >>= f) := fun p => by
  have h := hx p
  rw [outcome_bind]
  generalize outcome x p = o at h
  match o with
  | (.error e, p₁) => exact h
  | (.ok a, p₁) => exact h.trans (hf a p₁)

theorem register_grows (shape : Shape) (name? : Option String) : Grows (register shape name?) := fun p => by
  cases name? with
  | none => exact ⟨(p.registry.registerDeduplicated_keeps shape).extends, rfl⟩
  | some name =>
    simp only [register, outcome_bind, outcome_get, outcome_liftExcept]
    cases h : p.registry.register { shape with name := name } with
    | error e => exact .refl p
    | ok r => exact ⟨(Registry.register_keeps h).extends, rfl⟩

theorem closed_grows : Closed fun _ x => Grows x where
  pure _ := grows_pure
  throw _ := grows_throw
  bind := Grows.bind
  register := register_grows

theorem grows_liftExcept {r : Except GenerationError α} : Grows (register.liftExcept r) := closed_grows.liftExcept r

theorem Grows.map {f : α → β} (hx : Grows x) : Grows (f <$> x) := closed_grows.map hx

theorem grows_mapM {f : α → Generator β} (hf : ∀ a, Grows (f a)) (l : List α) : Grows (l.mapM f) :=
  closed_grows.mapM hf l

/-- Steps over a list that each keep `I` and establish `Q` keep `I`, and establish `Q` of every
element with its result in the registry at the end. -/
theorem runs_mapM {f : α → Generator β} {I : Progress → Prop} {Q : Registry → α → β → Prop}
    (mono : ∀ {r r' a b}, r'.Extends r → Q r a b → Q r' a b) {bs : List β} :
    ∀ {l : List α} {p : Progress}
      (_ : ∀ a ∈ l, ∀ {p b p'}, I p → Runs (f a) p b p' → I p' ∧ p.Grows p' ∧ Q p'.registry a b),
      I p → Runs (l.mapM f) p bs p' → I p' ∧ p.Grows p' ∧ List.Forall₂ (Q p'.registry) l bs := by
  intro l
  induction l generalizing bs with
  | nil =>
    intro p _ hI h
    simp only [List.mapM_nil, runs_pure] at h
    obtain ⟨rfl, rfl⟩ := h
    exact ⟨hI, .refl _, .nil⟩
  | cons a l ih =>
    intro p step hI h
    simp only [List.mapM_cons, runs_bind, runs_pure] at h
    obtain ⟨b, p₁, hb, bs', p₂, hbs, rfl, rfl⟩ := h
    obtain ⟨hI₁, hg₁, hq⟩ := step a (by simp) hI hb
    obtain ⟨hI₂, hg₂, hqs⟩ := ih (fun a ha => step a (by simp [ha])) hI₁ hbs
    exact ⟨hI₂, hg₁.trans hg₂, .cons (mono hg₂.registry hq) hqs⟩

/-! ## Registration -/

/-- A shape is kept under the name that `register` returns: the explicit one, or a candidate. -/
theorem register_runs {shape : Shape} {name? : Option String} {n : String}
    (h : Runs (register shape name?) p n p') :
    p.registry.Keeps { shape with name := n } p'.registry ∧
      ((name? = some n) ∨ (name? = none ∧ ∃ k, n = Registry.candidate shape.name k)) := by
  cases name? with
  | none =>
    simp only [register, runs_bind, runs_get, runs_set, runs_pure] at h
    obtain ⟨_, _, ⟨rfl, rfl⟩, _, _, rfl, rfl, rfl⟩ := h
    exact ⟨p.registry.registerDeduplicated_keeps shape, .inr ⟨rfl, (p.registry.nameFor_spec shape).2⟩⟩
  | some name =>
    simp only [register, runs_bind, runs_get, runs_set, runs_pure, runs_liftExcept] at h
    obtain ⟨_, _, ⟨rfl, rfl⟩, r, _, ⟨hr, rfl⟩, _, _, rfl, rfl, rfl⟩ := h
    exact ⟨Registry.register_keeps hr, .inl rfl⟩

end Generator

end TypedQuery
