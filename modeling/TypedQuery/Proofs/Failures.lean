/-
How generators fail. `Leads I E x J` says that `x`, started where `I` holds,
fails only as `E` allows, and otherwise ends where `J` holds. The rules for
the generators leave two things open. `Allows` and `AllowsInputs` are what
registering does to an invariant. `Judges` is a condition on selections at a
type, kept by all that is made of them on the way down (collecting, merging,
splitting), under which the type's own part of the work fails only as `E`
allows. So a claim about errors needs an invariant and a condition, and no
run.
-/
import TypedQuery.Proofs.OperationRuns

namespace TypedQuery

open Generator

/-- Errors that are neither about the type on which something is selected nor about names. -/
def GenerationError.isOrdinary : GenerationError → Bool
  | .unknownField _ _ | .incompatibleFragment _ _ _ | .nameCollision _ _ => false
  | _ => true

theorem bind_eq_error {ε α β : Type} {x : Except ε α} {f : α → Except ε β} {e : ε} :
    (x >>= f) = .error e ↔ x = .error e ∨ ∃ a, x = .ok a ∧ f a = .error e := by
  cases x <;> simp [bind, Except.bind]

namespace Generator

/-! ## Ends of generators -/

section Leads

variable {α β : Type} {I J K : Progress → Prop} {E : GenerationError → Prop} {x : Generator α}
  {f : α → Generator β} {p : Progress}

/-- From `p`, `x` fails as `E` allows, or leaves a progress in `J`. -/
def Ends (E : GenerationError → Prop) (x : Generator α) (J : Progress → Prop) (p : Progress) : Prop :=
  (∀ e p', outcome x p = (.error e, p') → E e) ∧ ∀ a p', Runs x p a p' → J p'

/-- Wherever `I` holds, `x` fails as `E` allows, or leaves a progress in `J`. -/
def Leads (I : Progress → Prop) (E : GenerationError → Prop) (x : Generator α) (J : Progress → Prop) : Prop :=
  ∀ p, I p → Ends E x J p

theorem ends_pure {a : α} (h : J p) : Ends E (pure a : Generator α) J p := by
  simp [Ends, h]

theorem ends_get_bind {f : Progress → Generator β} : Ends E (get >>= f) K p ↔ Ends E (f p) K p := by
  unfold Ends Runs
  simp only [outcome_bind, outcome_get]

theorem ends_throw {e : GenerationError} (h : E e) : Ends E (throw e : Generator α) J p := by
  simp [Ends, h]

theorem Ends.bind (hx : Ends E x J p) (hf : ∀ a p', J p' → Ends E (f a) K p') : Ends E (x >>= f) K p := by
  unfold Ends
  simp only [outcome_bind, Runs]
  rcases h : outcome x p with ⟨e | a, p₁⟩
  · refine ⟨?_, by simp⟩
    rintro _ _ ⟨⟩
    exact hx.1 e p₁ h
  · exact hf a p₁ (hx.2 a p₁ h)

theorem leads_pure {a : α} : Leads I E (pure a : Generator α) I := fun _ hI => ends_pure hI

theorem leads_throw {e : GenerationError} (h : E e) : Leads I E (throw e : Generator α) J :=
  fun _ _ => ends_throw h

theorem Leads.bind (hx : Leads I E x J) (hf : ∀ a, Leads J E (f a) K) : Leads I E (x >>= f) K :=
  fun p hI => (hx p hI).bind fun a p' hJ => hf a p' hJ

/-- What follows a computation of no effect may assume its result. -/
theorem leads_liftExcept_bind {r : Except GenerationError α} (herror : ∀ e, r = .error e → E e)
    (hok : ∀ a, r = .ok a → Leads I E (f a) J) : Leads I E (register.liftExcept r >>= f) J := by
  cases r with
  | ok a =>
    simp only [register.liftExcept, pure_bind]
    exact hok a rfl
  | error e => exact leads_throw (herror e rfl)

theorem Leads.map {g : α → β} (hx : Leads I E x J) : Leads I E (g <$> x) J := by
  rw [map_eq_pure_bind]
  exact hx.bind fun _ => leads_pure

theorem leads_mapM : ∀ {l : List α}, (∀ a ∈ l, Leads I E (f a) I) → Leads I E (l.mapM f) I
  | [], _ => leads_pure
  | a :: l, h => by
    rw [List.mapM_cons]
    exact (h a List.mem_cons_self).bind fun _ =>
      (leads_mapM fun b hb => h b (List.mem_cons_of_mem _ hb)).bind fun _ => leads_pure

end Leads

/-! ## Registration -/

/-- A shape without a name of its own is always kept, under one of its candidates. -/
theorem ends_register_none {E : GenerationError → Prop} {J : Progress → Prop} {shape : Shape} {p : Progress}
    (h : ∀ k r, p.registry.Keeps { shape with name := Registry.candidate shape.name k } r → J ⟨r, p.expanding⟩) :
    Ends E (register shape none) J p := by
  obtain ⟨k, hk⟩ := (p.registry.nameFor_spec shape).2
  have hkeeps := p.registry.registerDeduplicated_keeps shape
  refine ⟨fun e p' he => ?_, fun n p' hr => ?_⟩
  · simp only [register, outcome_bind, outcome_get, outcome_set, outcome_pure] at he
    cases (Prod.mk.inj he).1
  · simp only [register, runs_bind, runs_get, runs_set, runs_pure] at hr
    obtain ⟨_, _, ⟨rfl, rfl⟩, _, _, rfl, rfl, rfl⟩ := hr
    exact h k _ (hk ▸ hkeeps)

/-- A shape with a name of its own is kept, unless another shape has the name. -/
theorem ends_register_some {E : GenerationError → Prop} {J : Progress → Prop} {shape : Shape} {name : String}
    {p : Progress}
    (herror : ∀ t, p.registry.lookup? name = some t → t ≠ { shape with name := name } →
      E (.nameCollision t { shape with name := name }))
    (hok : ∀ r, p.registry.Keeps { shape with name := name } r → J ⟨r, p.expanding⟩) :
    Ends E (register shape (some name)) J p := by
  refine ⟨fun e p' he => ?_, fun n p' hr => ?_⟩
  · simp only [register, outcome_bind, outcome_get, outcome_liftExcept] at he
    cases hreg : p.registry.register { shape with name := name } with
    | ok r => simp [hreg] at he
    | error e' =>
      simp only [hreg, Prod.mk.injEq, Except.error.injEq] at he
      obtain ⟨rfl, -⟩ := he
      simp only [Registry.register] at hreg
      split at hreg
      next => cases hreg
      next t ht =>
        split at hreg
        next => cases hreg
        next hne =>
          cases hreg
          exact herror t ht hne
  · simp only [register, runs_bind, runs_get, runs_set, runs_pure, runs_liftExcept] at hr
    obtain ⟨_, _, ⟨rfl, rfl⟩, r, _, ⟨hreg, rfl⟩, _, _, rfl, rfl, rfl⟩ := hr
    exact hok r (Registry.register_keeps hreg)

end Generator

namespace Schema

variable {s : Schema} {I : Progress → Prop} {E : GenerationError → Prop} {P : Expanded → String → Prop}

/-! ## Conditions on selections -/

/-- Under the condition `P`, no selection fails at a type except as `E` allows, and what is made of
selections meets the condition where it goes: below a field on the type of the field, and after a
split on the site and on its run-time types. -/
structure Judges (s : Schema) (E : GenerationError → Prop) (P : Expanded → String → Prop) : Prop where
  ordinary : ∀ e, e.isOrdinary = true → E e
  fragment : ∀ ⦃label condition? c sub type⦄, P (.fragment label condition? c sub) type →
    (∀ e, s.checkCompatible label (condition?.getD type) type = .error e → E e) ∧
      ∀ x ∈ sub, P x (condition?.getD type)
  cyclic : ∀ ⦃name condition type⦄, P (.cyclic name condition) type →
    ∀ e, s.checkCompatible (.named name) condition type = .error e → E e
  declared : ∀ ⦃t selections collected f⦄, s.find? t.name = some t → (∀ x ∈ selections, P x t.name) →
    Expanded.collect s t.name selections = .ok collected → f ∈ collected →
    s.declaration? t.fields f = none → E (.unknownField t.name f.name)
  below : ∀ ⦃t selections collected f g⦄, s.find? t.name = some t → (∀ x ∈ selections, P x t.name) →
    Expanded.collect s t.name selections = .ok collected → f ∈ collected →
    s.declaration? t.fields f = some g → ∀ x ∈ f.selections, P x g.type.baseName
  split : ∀ ⦃site selections common branches⦄, (∀ x ∈ selections, P x site) →
    Expanded.split s site selections = .ok (common, branches) →
    (∀ x ∈ common, P x site) ∧ ∀ R ∈ s.possibleTypes site, ∀ o, s.find? R = some (.object o) →
      ∀ x ∈ common ++ branches.get R, P x R

theorem resolve_error {name : String} {e : GenerationError} (h : s.resolve name = .error e) :
    e = .unknownType name := by
  unfold resolve at h
  split at h
  · cases h
  · exact (Except.error.inj h).symm

end Schema

theorem Schema.isOrdinary_of_resolve {s : Schema} {name : String} {e : GenerationError}
    (h : s.resolve name = .error e) : e.isOrdinary = true := by
  rw [resolve_error h]
  rfl

/-- A fragment that may not stand where it is never makes a collision. -/
theorem Schema.checkCompatible_ne {s : Schema} {label : FragmentLabel} {condition type : String}
    {e : GenerationError} (h : s.checkCompatible label condition type = .error e) (a b : Shape) :
    e ≠ .nameCollision a b := by
  rintro rfl
  rcases bind_eq_error.1 h with h | ⟨_, -, h⟩
  · cases Schema.resolve_error h
  · split at h <;> cases h

theorem CollectedField.insert_error {site : String} {new : CollectedField} {e : GenerationError} :
    ∀ {fields : List CollectedField}, new.insert site fields = .error e → e.isOrdinary = true
  | [], h => by cases h
  | f :: rest, h => by
    rw [insert] at h
    split at h
    next =>
      split at h
      · cases h
      · cases h
        rfl
    next =>
      rcases bind_eq_error.1 h with h | ⟨_, -, h⟩
      · exact insert_error h
      · cases h

theorem CollectedField.foldlM_insert_error {site : String} {e : GenerationError} :
    ∀ {own fields : List CollectedField},
      own.foldlM (fun fields f => f.insert site fields) fields = .error e → e.isOrdinary = true
  | [], _, h => by cases h
  | f :: own, fields, h => by
    rw [List.foldlM_cons] at h
    rcases bind_eq_error.1 h with h | ⟨_, -, h⟩
    · exact insert_error h
    · exact foldlM_insert_error h

namespace Expanded

variable {s : Schema} {E : GenerationError → Prop} {P : Expanded → String → Prop} {site : String}
  {e : GenerationError}

mutual

theorem collectInto_error (hJ : s.Judges E P) {selections : List Expanded} {scope : String} {conditional : Bool}
    {fields : List CollectedField} (hP : ∀ x ∈ selections, P x scope)
    (h : collectInto s site scope conditional selections fields = .error e) : E e := by
  rw [collectInto] at h
  rcases bind_eq_error.1 h with h | ⟨_, -, h⟩
  · exact hJ.ordinary e (CollectedField.foldlM_insert_error h)
  · exact collectFragments_error hJ hP h
termination_by (sizeOf selections, 1)

theorem collectFragments_error (hJ : s.Judges E P) {selections : List Expanded} {scope : String}
    {conditional : Bool} {fields : List CollectedField} (hP : ∀ x ∈ selections, P x scope)
    (h : collectFragments s site scope conditional selections fields = .error e) : E e := by
  match selections with
  | [] => simp [collectFragments] at h
  | field _ _ _ _ :: rest =>
    rw [collectFragments] at h
    exact collectFragments_error hJ (List.forall_mem_cons.1 hP).2 h
  | undefined name :: rest =>
    rw [collectFragments] at h
    cases h
    exact hJ.ordinary _ rfl
  | cyclic name condition :: rest =>
    obtain ⟨hhead, hrest⟩ := List.forall_mem_cons.1 hP
    rw [collectFragments] at h
    rcases bind_eq_error.1 h with h | ⟨_, -, h⟩
    · exact hJ.cyclic hhead e h
    · split at h
      · cases h
        exact hJ.ordinary _ rfl
      · exact collectFragments_error hJ hrest h
  | fragment label condition? c sub :: rest =>
    obtain ⟨hhead, hrest⟩ := List.forall_mem_cons.1 hP
    obtain ⟨hcompatible, hsub⟩ := hJ.fragment hhead
    simp only [collectFragments] at h
    rcases bind_eq_error.1 h with h | ⟨_, -, h⟩
    · exact hcompatible e h
    · split at h
      · rcases bind_eq_error.1 h with h | ⟨_, -, h⟩
        · exact collectInto_error hJ hsub h
        · exact collectFragments_error hJ hrest h
      · exact collectFragments_error hJ hrest h
termination_by (sizeOf selections, 0)

end

theorem collect_error (hJ : s.Judges E P) {selections : List Expanded} (hP : ∀ x ∈ selections, P x site)
    (h : collect s site selections = .error e) : E e :=
  collectInto_error hJ hP h

theorem splitInto_error (hJ : s.Judges E P) :
    ∀ {selections : List Expanded} {scope : String} {conditional : Bool} {branches : Branches},
      (∀ x ∈ selections, P x scope) → splitInto s site scope conditional selections branches = .error e → E e
  | [], _, _, _, _, h => by simp [splitInto] at h
  | field _ _ _ _ :: rest, _, _, _, hP, h => by
    rw [splitInto] at h
    rcases bind_eq_error.1 h with h | ⟨_, -, h⟩
    · exact splitInto_error hJ (List.forall_mem_cons.1 hP).2 h
    · cases h
  | undefined name :: rest, _, _, _, _, h => by
    rw [splitInto] at h
    cases h
    exact hJ.ordinary _ rfl
  | cyclic name condition :: rest, _, _, _, hP, h => by
    obtain ⟨hhead, hrest⟩ := List.forall_mem_cons.1 hP
    rw [splitInto] at h
    rcases bind_eq_error.1 h with h | ⟨_, -, h⟩
    · exact hJ.cyclic hhead e h
    · split at h
      · cases h
        exact hJ.ordinary _ rfl
      · exact splitInto_error hJ hrest h
  | fragment label condition? c sub :: rest, _, _, _, hP, h => by
    obtain ⟨hhead, hrest⟩ := List.forall_mem_cons.1 hP
    obtain ⟨hcompatible, hsub⟩ := hJ.fragment hhead
    rw [splitInto] at h
    rcases bind_eq_error.1 h with h | ⟨_, -, h⟩
    · exact hcompatible e h
    · split at h
      · rcases bind_eq_error.1 h with h | ⟨_, -, h⟩
        · exact splitInto_error hJ hsub h
        · rcases bind_eq_error.1 h with h | ⟨_, -, h⟩
          · exact splitInto_error hJ hrest h
          · cases h
      · exact splitInto_error hJ hrest h

end Expanded

namespace Schema

/-! ## Output shapes -/

variable {s : Schema} {I : Progress → Prop} {E : GenerationError → Prop} {P : Expanded → String → Prop}

/-- Registering the shape of an object, an interface or a union under a name that is free, or the
shape of an enum, keeps `I` and fails only as `E` allows. -/
structure Allows (s : Schema) (I : Progress → Prop) (E : GenerationError → Prop) : Prop where
  composite : ∀ ⦃shape t⦄, s.find? shape.schemaType = some t → t.isComposite = true →
    shape.name = shape.schemaType → Leads I E (register shape none) I
  enumeration : ∀ ⦃d⦄, s.find? d.name = some (.enumeration d) → Leads I E (enumShape d) I

/-- Selections that meet the condition are resolved without an error that `E` does not allow. -/
def ResolverLeads (I : Progress → Prop) (E : GenerationError → Prop) (P : Expanded → String → Prop)
    (resolve : FieldResolver) : Prop :=
  ∀ ⦃f selections⦄, (∀ x ∈ selections, P x f.type.baseName) → Leads I E (resolve f selections) I

section shapes

variable {resolve : FieldResolver} {selections : List Expanded} {name? : Option String}

theorem properties_leads (hJ : s.Judges E P) (hres : ResolverLeads I E P resolve) {t : TypeDefinition}
    (ht : s.find? t.name = some t) (hP : ∀ x ∈ selections, P x t.name) :
    Leads I E (s.properties resolve t.name t.fields selections) I := by
  refine leads_liftExcept_bind (fun e he => Expanded.collect_error hJ hP he) fun collected hc => ?_
  refine leads_mapM fun f hf => ?_
  unfold property
  split
  next hnone => exact leads_throw (hJ.declared ht hP hc hf hnone)
  next g hg => exact (hres (hJ.below ht hP hc hf hg)).bind fun _ => leads_pure

theorem objectShape_leads (hJ : s.Judges E P) (hres : ResolverLeads I E P resolve) {o : ObjectDefinition}
    {J : Progress → Prop} (ho : s.find? o.name = some (.object o)) (hP : ∀ x ∈ selections, P x o.name)
    (hreg : ∀ qs, Leads I E (register ⟨o.name, o.name, .object, o.description?, qs⟩ name?) J) :
    Leads I E (s.objectShape resolve o selections name?) J := by
  unfold objectShape
  extract_lets rest
  have hrest : ∀ u, Leads I E (rest u) J := fun _ =>
    (properties_leads hJ hres (t := .object o) ho hP).bind hreg
  split
  · exact (leads_throw (J := I) (hJ.ordinary _ rfl)).bind hrest
  · exact hrest ()

theorem variants_leads (hJ : s.Judges E P) (hA : s.Allows I E) (hres : ResolverLeads I E P resolve)
    {common : List Expanded} : ∀ {types : List String} {branches : Branches},
    (∀ R ∈ types, ∀ o, s.find? R = some (.object o) → ∀ x ∈ common ++ branches.get R, P x R) →
    Leads I E (s.variants resolve common branches types) I
  | [], _, _ => by
    rw [variants]
    exact leads_pure
  | t :: types, branches, hP => by
    have hrest : Leads I E (s.variants resolve common (branches.remove t) types) I := by
      refine variants_leads hJ hA hres fun R hR o ho x hx => hP R (List.mem_cons_of_mem _ hR) o ho x ?_
      rw [Branches.get_remove] at hx
      split at hx
      · rw [List.append_nil] at hx
        exact List.mem_append_left _ hx
      · exact hx
    rw [variants]
    split
    · exact hrest
    · refine leads_liftExcept_bind (fun e he => hJ.ordinary e (isOrdinary_of_resolve he)) fun d hd => ?_
      have hfind : s.find? t = some d := resolve_eq_ok.1 hd
      split
      next o =>
        have ho : s.find? o.name = some (.object o) := find?_self hfind
        have hname : t = o.name := (find?_name hfind).symm
        refine (objectShape_leads hJ hres ho ?_ fun qs => hA.composite ho rfl rfl).bind fun _ =>
          hrest.bind fun _ => leads_pure
        rw [← hname]
        exact hP t List.mem_cons_self o hfind
      next => exact hrest

theorem abstractShape_leads (hJ : s.Judges E P) (hA : s.Allows I E) (hres : ResolverLeads I E P resolve)
    {site : TypeDefinition} (hsite : s.find? site.name = some site) (hcomposite : site.isComposite = true)
    (hP : ∀ x ∈ selections, P x site.name) : Leads I E (s.abstractShape resolve site selections none) I := by
  unfold abstractShape
  extract_lets rest
  have hrest : ∀ u, Leads I E (rest u) I := fun _ => by
    refine leads_liftExcept_bind (fun e he => Expanded.splitInto_error hJ hP he) fun ⟨common, branches⟩ hsplit => ?_
    obtain ⟨hcommon, hbranches⟩ := hJ.split hP hsplit
    refine (properties_leads hJ hres hsite hcommon).bind fun _ => ?_
    extract_lets keep
    have hkeep : ∀ vs, Leads I E (keep vs) I := fun _ => hA.composite hsite hcomposite rfl
    split
    · exact leads_pure.bind hkeep
    · refine leads_liftExcept_bind (fun e he => Expanded.collect_error hJ hcommon he) fun _ _ => ?_
      split
      · exact (variants_leads hJ hA hres hbranches).bind hkeep
      · exact (leads_throw (J := I) (hJ.ordinary _ rfl)).bind hkeep
  split
  · exact (leads_throw (J := I) (hJ.ordinary _ rfl)).bind hrest
  · exact hrest ()

theorem fieldTypeOver_leads (hJ : s.Judges E P) (hA : s.Allows I E) (hres : ResolverLeads I E P resolve) :
    ResolverLeads I E P (s.fieldTypeOver resolve) := by
  intro f selections hP
  refine leads_liftExcept_bind (fun e he => hJ.ordinary e (isOrdinary_of_resolve he)) fun t ht => ?_
  have hfind : s.find? f.type.baseName = some t := resolve_eq_ok.1 ht
  have hself : s.find? t.name = some t := find?_self hfind
  rw [← find?_name hfind] at hP
  extract_lets wrap
  have hwrap : ∀ base, Leads I E (wrap base) I := fun _ => leads_pure
  cases t with
  | scalar d => exact leads_pure.bind hwrap
  | enumeration d => exact (hA.enumeration hself).map.bind hwrap
  | object d => exact (objectShape_leads hJ hres hself hP fun qs => hA.composite hself rfl rfl).map.bind hwrap
  | interface d => exact (abstractShape_leads hJ hA hres hself rfl hP).map.bind hwrap
  | union d => exact (abstractShape_leads hJ hA hres hself rfl hP).map.bind hwrap
  | input d => exact (leads_throw (J := I) (hJ.ordinary _ rfl)).bind hwrap

/-- Fields are resolved, at every depth, without an error that `E` does not allow. -/
theorem fieldType_leads (hJ : s.Judges E P) (hA : s.Allows I E) (levels : Nat) :
    ResolverLeads I E P (s.fieldType levels) :=
  fieldType_induct (P := ResolverLeads I E P) (fun _ _ _ => leads_throw (hJ.ordinary _ rfl))
    (fun _ => fieldTypeOver_leads hJ hA) levels

end shapes

/-! ## Inputs -/

/-- Registering the shape of an enum, or the shape of an input object whose fields are resolved,
keeps `I` and fails only as `E` allows; and so does going inside an input object. -/
structure AllowsInputs (s : Schema) (I : Progress → Prop) (E : GenerationError → Prop) : Prop where
  ordinary : ∀ e, e.isOrdinary = true → E e
  enumeration : ∀ ⦃d⦄, s.find? d.name = some (.enumeration d) → Leads I E (enumShape d) I
  enter : ∀ ⦃d p⦄, s.find? d.name = some (.input d) → d.name ∉ p.registry.names → I p → I (p.enter d.name)
  input : ∀ ⦃d p q qs⦄, s.find? d.name = some (.input d) → d.name ∉ p.expanding → I q →
    q.expanding = d.name :: p.expanding →
    Ends E (register ⟨d.name, d.name, .inputObject, d.description?, qs⟩ (some d.name)) I (q.backTo p)

/-- The same for inputs whose names are in `R`, which holds of the fields of an input object with it: a name in `R`
that is no input fails as `E` allows. -/
structure AllowsInputsIn (s : Schema) (R : String → Prop) (I : Progress → Prop) (E : GenerationError → Prop) :
    Prop where
  field : ∀ ⦃d f⦄, s.find? d.name = some (.input d) → R d.name → f ∈ d.fields → R f.type.baseName
  undefined : ∀ ⦃name⦄, R name → s.find? name = none → E (.unknownType name)
  composite : ∀ ⦃t⦄, s.find? t.name = some t → R t.name → t.isComposite = true →
    ∀ position, E (.unexpectedTypeKind t.name t.kind position)
  enumeration : ∀ ⦃d⦄, s.find? d.name = some (.enumeration d) → R d.name → Leads I E (enumShape d) I
  enter : ∀ ⦃d p⦄, s.find? d.name = some (.input d) → d.name ∉ p.registry.names → I p → I (p.enter d.name)
  input : ∀ ⦃d p q qs⦄, s.find? d.name = some (.input d) → R d.name → d.name ∉ p.expanding → I q →
    q.expanding = d.name :: p.expanding →
    Ends E (register ⟨d.name, d.name, .inputObject, d.description?, qs⟩ (some d.name)) I (q.backTo p)

theorem AllowsInputs.allowsIn (hA : s.AllowsInputs I E) : s.AllowsInputsIn (fun _ => True) I E where
  field _ _ _ _ _ := trivial
  undefined _ _ _ := hA.ordinary _ rfl
  composite _ _ _ _ _ := hA.ordinary _ rfl
  enumeration _ hd _ := hA.enumeration hd
  enter := hA.enter
  input _ _ _ _ hd _ := hA.input hd

section inputs

variable {R : String → Prop}

/-- Inputs in `R` are resolved, `depth` input objects deep, without an error that `E` does not allow. -/
def InputsLead (s : Schema) (R : String → Prop) (I : Progress → Prop) (E : GenerationError → Prop) (depth : Nat) :
    Prop :=
  ∀ type position, R type.baseName → Leads I E (s.inputType depth type position) I

theorem inputFields_leads (hA : s.AllowsInputsIn R I E) {depth : Nat} (h : s.InputsLead R I E depth)
    {d : InputDefinition} (hd : s.find? d.name = some (.input d)) (hR : R d.name) :
    Leads I E (s.inputFields depth d) I :=
  leads_mapM fun _ hf => (h _ _ (hA.field hd hR hf)).bind fun _ => leads_pure

theorem inputBase_leads (hA : s.AllowsInputsIn R I E) {depth : Nat} {d : InputDefinition}
    (hd : s.find? d.name = some (.input d)) (hR : R d.name)
    (h : ∀ below, depth = below + 1 → s.InputsLead R I E below) : Leads I E (s.inputBase depth d) I := by
  intro p hI
  rw [inputBase.eq_def, ends_get_bind]
  split
  next => exact ends_pure hI
  next hnew =>
    simp only [Bool.or_eq_true, decide_eq_true_eq, not_or, Registry.contains_iff] at hnew
    obtain ⟨hn, hnames⟩ := hnew
    cases depth with
    | zero => exact ends_pure hI
    | succ depth =>
      have hfields := inputFields_leads hA (h depth rfl) hd hR _ (hA.enter hd hnames hI)
      -- an error takes the name out as well, so only success needs the invariant
      have hin : Ends E (inside d.name (s.inputFields depth d))
          (fun q => ∃ q₁, I q₁ ∧ q₁.expanding = d.name :: p.expanding ∧ q = q₁.backTo p) p := by
        have hg := inputFields_grows (inputType_grows (s := s) depth) d
        unfold Ends Runs
        rw [outcome_inside hg hn]
        refine ⟨fun e q he => hfields.1 e _ (Prod.ext (Prod.mk.inj he).1 rfl), fun qs q hr => ?_⟩
        obtain ⟨hqs, rfl⟩ := Prod.mk.inj hr
        exact ⟨_, hfields.2 qs _ (Prod.ext hqs rfl), (hg _).expanding, rfl⟩
      refine hin.bind ?_
      rintro qs _ ⟨q, hIq, hexp, rfl⟩
      rw [map_eq_pure_bind]
      exact (hA.input hd hR hn hIq hexp).bind fun _ _ => ends_pure

theorem inputType_leads_over (hA : s.AllowsInputsIn R I E) {depth : Nat}
    (h : ∀ below, depth = below + 1 → s.InputsLead R I E below) : s.InputsLead R I E depth := by
  intro type position hR
  have hundefined : ∀ e, s.resolve type.baseName = .error e → E e := by
    intro e he
    rw [resolve_error he]
    refine hA.undefined hR (Option.eq_none_iff_forall_ne_some.2 fun t ht => ?_)
    rw [resolve_eq_ok.2 ht] at he
    cases he
  rw [inputType_eq]
  refine Leads.map (leads_liftExcept_bind hundefined fun t ht => ?_)
  have hfind : s.find? type.baseName = some t := resolve_eq_ok.1 ht
  have hself : s.find? t.name = some t := find?_self hfind
  rw [← find?_name hfind] at hR
  cases t with
  | scalar d => exact leads_pure
  | enumeration d => exact (hA.enumeration hself hR).map
  | object d | interface d | union d => exact leads_throw (hA.composite hself hR rfl position)
  | input d => exact inputBase_leads hA hself hR h

/-- Inputs are resolved, at every depth, without an error that `E` does not allow. -/
theorem inputType_leads (hA : s.AllowsInputsIn R I E) : ∀ depth : Nat, s.InputsLead R I E depth
  | 0 => inputType_leads_over hA fun _ h => nomatch h
  | depth + 1 => inputType_leads_over hA fun below h => by
    cases h
    exact inputType_leads hA depth

theorem variableProperties_leads_in (hA : s.AllowsInputsIn R I E) {parameters : List VariableDefinition}
    (hR : ∀ v ∈ parameters, R v.type.baseName) : Leads I E (s.variableProperties parameters) I :=
  leads_mapM fun v hv => (inputType_leads hA _ _ _ (hR v hv)).bind fun _ => leads_pure

theorem variableProperties_leads (hA : s.AllowsInputs I E) (parameters : List VariableDefinition) :
    Leads I E (s.variableProperties parameters) I :=
  variableProperties_leads_in hA.allowsIn fun _ _ => trivial

end inputs

/-! ## Operations -/

/-- All that is wrong with a walk is that it meets a cycle. -/
theorem isOrdinary_of_walk {d : Document} {path done names : List String} {e : GenerationError}
    (h : d.walk path done names = .error e) : e.isOrdinary = true := by
  induction path, done, names using Document.walk.induct d with
  | case1 path done => simp [Document.walk] at h
  | case2 path done name rest hin ih =>
    rw [Document.walk, if_pos hin] at h
    exact ih h
  | case3 path done name rest hin hp =>
    rw [Document.walk, if_neg hin, dif_pos hp] at h
    cases h
    rfl
  | case4 path done name rest hin hp hf ih =>
    rw [Document.walk, if_neg hin, dif_neg hp] at h
    split at h
    next => exact ih h
    next g hg => cases hf.symm.trans hg
  | case5 path done name rest hin hp f hf e' he ih =>
    rw [Document.walk, if_neg hin, dif_neg hp] at h
    split at h
    next hg => cases hg.symm.trans hf
    next g hg =>
      obtain rfl : f = g := Option.some.inj (hf.symm.trans hg)
      rw [he] at h
      exact ih (he.trans h)
  | case6 path done name rest hin hp f hf done₁ he ih ihr =>
    rw [Document.walk, if_neg hin, dif_neg hp] at h
    split at h
    next hg => cases hg.symm.trans hf
    next g hg =>
      obtain rfl : f = g := Option.some.inj (hf.symm.trans hg)
      rw [he] at h
      exact ihr h

theorem isOrdinary_of_checkCycles {d : Document} {selections : List Selection} {e : GenerationError}
    (h : d.checkCycles selections = .error e) : e.isOrdinary = true := by
  rcases bind_eq_error.1 h with h | ⟨_, -, h⟩
  · exact isOrdinary_of_walk h
  · cases h

/-- An operation leads where the shape of its data and after it its variables lead; `J` holds
between the two. -/
theorem operationShapes_leads {J K : Progress → Prop} {d : Document} {op : Operation} (hJ : s.Judges E P)
    (hA : s.Allows I E) (hI : s.AllowsInputs K E)
    (hP : ∀ x ∈ d.expand op.selections, P x (s.rootType op.kind))
    (hdata : ∀ shape, Leads I E (register shape (some (op.dataTypeName (s.rootType op.kind)))) J)
    (hJK : ∀ p, J p → K p) : Leads I E (s.operationShapes d op) K := by
  refine leads_liftExcept_bind (fun e he => hJ.ordinary e (isOrdinary_of_checkCycles he)) fun _ _ => ?_
  refine leads_liftExcept_bind (fun e he => hJ.ordinary e (isOrdinary_of_resolve he)) fun t ht => ?_
  have hfind : s.find? (s.rootType op.kind) = some t := resolve_eq_ok.1 ht
  rw [← find?_name hfind] at hP
  cases t with
  | object root =>
    refine (objectShape_leads hJ (fieldType_leads hJ hA _) (find?_self hfind) hP fun _ => hdata _).bind fun _ => ?_
    exact fun p hp => ((variableProperties_leads hI _).bind fun _ => leads_pure) p (hJK p hp)
  | scalar | enumeration | interface | union | input => exact leads_throw (hJ.ordinary _ rfl)

/-- What an operation fails with is what its shapes fail with. -/
theorem generateOperation_leads {J : Progress → Prop} {d : Document} {op : Operation}
    (h : Leads I E (s.operationShapes d op) J) : Leads I E (s.generateOperation d op) J := by
  intro p hI
  refine ⟨fun e p' he => ?_, fun shape p' hr => (h p hI).2 shape p' (generateOperation_runs.1 hr)⟩
  rw [outcome_generateOperation] at he
  rcases hop : outcome (s.operationShapes d op) p with ⟨e' | shape, q⟩
  · rw [hop] at he
    obtain rfl : e' = e := Except.error.inj (Prod.mk.inj he).1
    exact (h p hI).1 e' q hop
  · rw [hop] at he
    cases (Prod.mk.inj he).1

end Schema

end TypedQuery
