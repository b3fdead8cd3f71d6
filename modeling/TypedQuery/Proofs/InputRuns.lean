/-
What a run that resolves the type of a variable or an input field has done.
While the fields of an input object are resolved its name is in `expanding`,
and however that ends the name is taken out again (`outcome_inside`), so the
generators of inputs leave `expanding` as it was (`inputType_grows`).
`InputRuns` are the ways in which a base is resolved.
-/
import TypedQuery.Proofs.GeneratorRuns
import TypedQuery.Proofs.SchemaFacts

namespace TypedQuery

open Generator

/-- Inside the input object `name`. -/
def Progress.enter (p : Progress) (name : String) : Progress := { p with expanding := name :: p.expanding }

/-- Inside what `q` was inside. -/
def Progress.backTo (p q : Progress) : Progress := { p with expanding := q.expanding }

namespace Generator

/-- Takes `name` out of the input objects being expanded. -/
def leave (name : String) : Generator Unit :=
  modify fun p => { p with expanding := p.expanding.filter (· ≠ name) }

/-- Runs `x` inside the input object `name`. -/
def inside {α : Type} (name : String) (x : Generator α) : Generator α := do
  modify (·.enter name)
  let a ← tryCatch x fun e => do
    leave name
    throw e
  leave name
  return a

/-- Whether `x` fails or not, the input objects being expanded are afterwards those from before. -/
theorem outcome_inside {α : Type} {x : Generator α} (hx : Grows x) {name : String} {p : Progress}
    (hn : name ∉ p.expanding) :
    outcome (inside name x) p = ((outcome x (p.enter name)).1, (outcome x (p.enter name)).2.backTo p) := by
  have hleave : ∀ q : Progress, q.expanding = name :: p.expanding →
      { q with expanding := q.expanding.filter (· ≠ name) } = q.backTo p := by
    intro q hq
    have hfilter : (name :: p.expanding).filter (· ≠ name) = p.expanding := by
      rw [List.filter_cons_of_neg (by simp)]
      exact List.filter_eq_self.2 fun n hmem => by simpa using fun he : n = name => hn (he ▸ hmem)
    rw [hq, hfilter]
    rfl
  have hexp := (hx (p.enter name)).expanding
  rcases h : outcome x (p.enter name) with ⟨r, q⟩
  rw [h] at hexp
  have hout : outcome (leave name) q = (.ok (), q.backTo p) := by
    rw [leave, outcome_modify, hleave q hexp]
  cases r with
  | error e => simp only [inside, outcome_bind, outcome_modify, outcome_tryCatch, h, hout, outcome_throw]
  | ok a => simp only [inside, outcome_bind, outcome_modify, outcome_tryCatch, h, hout, outcome_pure]

end Generator

namespace Schema

/-- The properties of the fields of an input object. -/
def inputFields (s : Schema) (depth : Nat) (d : InputDefinition) : Generator (List Property) :=
  d.fields.mapM fun f => do
    let t ← s.inputType depth f.type (.inputField d.name f.name)
    return ⟨f.name, f.name, t, f.description?⟩

/-- The base type of an input object. -/
def inputBase (s : Schema) (depth : Nat) (d : InputDefinition) : Generator BaseType := do
  let p ← get
  if d.name ∈ p.expanding || p.registry.contains d.name then return .generated d.name
  else
    match depth with
    | 0 => return .generated d.name
    | depth + 1 => do
      let properties ← inside d.name (s.inputFields depth d)
      .generated <$> register ⟨d.name, d.name, .inputObject, d.description?, properties⟩ (some d.name)

/-- The base of the type named `name`, as variables and input fields have it. -/
def baseOfInput (s : Schema) (depth : Nat) (name : String) (position : TypePosition) : Generator BaseType := do
  match ← register.liftExcept (s.resolve name) with
  | .scalar d => return .scalar d.name (s.hostType d.name)
  | .enumeration d => .generated <$> enumShape d
  | .input d => s.inputBase depth d
  | other => throw (.unexpectedTypeKind other.name other.kind position)

theorem inputType_eq {s : Schema} {depth : Nat} {type : TypeRef} {position : TypePosition} :
    s.inputType depth type position =
      (PropertyType.ofTypeRef type ·) <$> s.baseOfInput depth type.baseName position := by
  rw [inputType.eq_def, baseOfInput, map_bind]
  refine bind_congr fun t => ?_
  cases t with
  | scalar d => simp
  | enumeration d => simp
  | object d | interface d | union d => rfl
  | input d =>
    dsimp only
    rw [inputBase.eq_def, map_bind]
    refine bind_congr fun p => ?_
    split
    · simp
    · cases depth with
      | zero => simp
      | succ depth =>
        simp only [map_bind, inside, leave, bind_assoc, pure_bind, inputFields]
        simp
        rfl

/-! ## Growth -/

theorem inputFields_grows {s : Schema} {depth : Nat}
    (h : ∀ type position, Grows (s.inputType depth type position)) (d : InputDefinition) :
    Grows (s.inputFields depth d) :=
  grows_mapM (fun _ => (h _ _).bind fun _ => grows_pure) _

theorem backTo_grows {p q : Progress} {name : String} (h : (p.enter name).Grows q) : p.Grows (q.backTo p) :=
  ⟨h.registry, rfl⟩

theorem inside_grows {α : Type} {x : Generator α} (hx : Grows x) {name : String} {p : Progress}
    (hn : name ∉ p.expanding) : p.Grows (outcome (inside name x) p).2 := by
  rw [outcome_inside hx hn]
  exact backTo_grows (hx _)

theorem inputBase_grows {s : Schema} {depth : Nat} {d : InputDefinition}
    (h : ∀ below, depth = below + 1 → ∀ type position, Grows (s.inputType below type position)) :
    Grows (s.inputBase depth d) := by
  intro p
  rw [inputBase.eq_def, outcome_bind, outcome_get]
  dsimp only
  split
  next => exact .refl p
  next hnew =>
    have hn : d.name ∉ p.expanding := by
      simp only [Bool.or_eq_true, decide_eq_true_eq, not_or] at hnew
      exact hnew.1
    cases depth with
    | zero => exact .refl p
    | succ depth =>
      have hin := inside_grows (inputFields_grows (h depth rfl) d) hn
      rw [outcome_bind]
      generalize outcome (inside d.name (s.inputFields depth d)) p = o at hin
      match o with
      | (.error e, q) => exact hin
      | (.ok qs, q) => exact hin.trans ((register_grows _ _).map q)

theorem inputType_grows_over {s : Schema} {depth : Nat}
    (h : ∀ below, depth = below + 1 → ∀ type position, Grows (s.inputType below type position))
    (type : TypeRef) (position : TypePosition) : Grows (s.inputType depth type position) := by
  rw [inputType_eq]
  refine Grows.map (grows_liftExcept.bind fun t => ?_)
  cases t with
  | scalar d => exact grows_pure
  | enumeration d => exact (register_grows _ _).map
  | object d | interface d | union d => exact grows_throw
  | input d => exact inputBase_grows h

theorem inputType_grows {s : Schema} : ∀ (depth : Nat) (type : TypeRef) (position : TypePosition),
    Grows (s.inputType depth type position)
  | 0 => inputType_grows_over fun _ h => nomatch h
  | depth + 1 => inputType_grows_over fun below h => by
    cases h
    exact inputType_grows depth

theorem variableProperties_grows {s : Schema} (parameters : List VariableDefinition) :
    Grows (s.variableProperties parameters) :=
  grows_mapM (fun _ => (inputType_grows _ _ _).bind fun _ => grows_pure) _

/-! ## What a run has registered -/

/-- The ways in which the base of an input is resolved, by the kind of the type named `name`. -/
inductive InputRuns (s : Schema) (name : String) (p : Progress) : Nat → BaseType → Progress → Prop
  | scalar {depth d} (h : s.find? name = some (.scalar d)) :
    InputRuns s name p depth (.scalar d.name (s.hostType d.name)) p
  | enumeration {depth d n p'} (h : s.find? name = some (.enumeration d)) (hr : Runs (enumShape d) p n p') :
    InputRuns s name p depth (.generated n) p'
  | known {depth d} (h : s.find? name = some (.input d))
    (hk : d.name ∈ p.expanding ∨ d.name ∈ p.registry.names) :
    InputRuns s name p depth (.generated d.name) p
  | exhausted {d} (h : s.find? name = some (.input d)) (hn : d.name ∉ p.expanding) :
    InputRuns s name p 0 (.generated d.name) p
  | fields {depth d qs p₁ n p'} (h : s.find? name = some (.input d)) (hn : d.name ∉ p.expanding)
    (hf : Runs (s.inputFields depth d) (p.enter d.name) qs p₁)
    (hr : Runs (register ⟨d.name, d.name, .inputObject, d.description?, qs⟩ (some d.name)) (p₁.backTo p) n p') :
    InputRuns s name p (depth + 1) (.generated n) p'

theorem inputType_runs {s : Schema} {depth : Nat} {type : TypeRef} {position : TypePosition} {t : PropertyType}
    {p p' : Progress} (h : Runs (s.inputType depth type position) p t p') :
    ∃ base, s.InputRuns type.baseName p depth base p' ∧ t = .ofTypeRef type base := by
  rw [inputType_eq] at h
  obtain ⟨base, hbase, rfl⟩ := runs_map.1 h
  refine ⟨base, ?_, rfl⟩
  obtain ⟨d, p₀, hlift, hd⟩ := runs_bind.1 hbase
  obtain ⟨hres, rfl⟩ := runs_liftExcept.1 hlift
  have hfind : s.find? type.baseName = some d := resolve_eq_ok.1 hres
  cases d with
  | scalar d =>
    obtain ⟨rfl, rfl⟩ := runs_pure.1 hd
    exact .scalar hfind
  | enumeration d =>
    obtain ⟨n, hn, rfl⟩ := runs_map.1 hd
    exact .enumeration hfind hn
  | object d | interface d | union d => exact absurd hd runs_throw
  | input d =>
    dsimp only at hd
    rw [inputBase.eq_def] at hd
    obtain ⟨_, _, hget, hd⟩ := runs_bind.1 hd
    obtain ⟨rfl, rfl⟩ := runs_get.1 hget
    split at hd
    next hknown =>
      obtain ⟨rfl, rfl⟩ := runs_pure.1 hd
      simp only [Bool.or_eq_true, decide_eq_true_eq, Registry.contains_iff] at hknown
      exact .known hfind hknown
    next hnew =>
      have hn : d.name ∉ p.expanding := by
        simp only [Bool.or_eq_true, decide_eq_true_eq, not_or] at hnew
        exact hnew.1
      cases depth with
      | zero =>
        obtain ⟨rfl, rfl⟩ := runs_pure.1 hd
        exact .exhausted hfind hn
      | succ depth =>
        obtain ⟨qs, p₁, hin, hreg⟩ := runs_bind.1 hd
        obtain ⟨n, hn', rfl⟩ := runs_map.1 hreg
        rw [Runs, outcome_inside (inputFields_grows (inputType_grows depth) d) hn] at hin
        obtain ⟨hqs, rfl⟩ := Prod.mk.inj hin
        exact .fields hfind hn (Prod.ext hqs rfl) hn'

end Schema

end TypedQuery
