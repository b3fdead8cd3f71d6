/-
Generation ends. The generators stop by construction: at a number of levels,
at fragments opened before, at a depth of input objects. Here the same
generators recurse without such a stop, `n` calls deep, and do anything at
all (`Deep`) in the place of deeper calls. From `callDepth` on they are the
generators that stop (`generation_terminates`), so the recursion of the
generators never gets deeper than that, and no stop ever decides anything:
fragments that reach no cycle open each other at most once on the way down,
selections lose a level with each call, and each input object that is entered
is one less to enter.
-/
import TypedQuery.Proofs.Descent
import TypedQuery.Proofs.OperationRuns

namespace TypedQuery

open Generator

/-! ## Opening spreads -/

/-- The selections with every spread opened, and in the place of selections more than `n` spreads
deep what `deep` makes of them. -/
def Document.openUpTo (d : Document) (deep : List Selection → List Expanded) :
    Nat → List Selection → List Expanded
  | _, [] => []
  | n, .field alias? name conditional sub :: rest =>
    .field (alias?.getD name) name conditional (d.openUpTo deep n sub) :: d.openUpTo deep n rest
  | n, .inline condition? conditional sub :: rest =>
    .fragment .inline condition? conditional (d.openUpTo deep n sub) :: d.openUpTo deep n rest
  | n, .spread name conditional :: rest =>
    (match d.fragment? name with
      | none => .undefined name
      | some f =>
        .fragment (.named name) (some f.condition) conditional
          (match n with
            | 0 => deep f.selections
            | n + 1 => d.openUpTo deep n f.selections)) ::
      d.openUpTo deep n rest
termination_by n selections => (n, sizeOf selections)

namespace Document

/-- Where nothing reached is open already or reaches itself, each spread opened leaves one fragment
less to open, and `expandWith` never meets a fragment again. -/
theorem openUpTo_eq_expandWith {d : Document} {deep : List Selection → List Expanded} {unopened : List Fragment}
    {selections : List Selection} {opened : List String} {n : Nat} (hun : unopened = d.fragmentsOutside opened)
    (hn : unopened.length ≤ n) (hac : d.AcyclicFrom selections)
    (hout : ∀ n ∈ Selection.spreadsOf selections, ∀ m, Relation.ReflTransGen d.Spreads n m → m ∉ opened) :
    d.openUpTo deep n selections = d.expandWith unopened selections := by
  induction unopened, selections using Document.expandWith.induct generalizing opened n with
  | case1 unopened => rw [expandWith, openUpTo]
  | case2 unopened alias? name c sub rest ih ihr =>
    simp only [AcyclicFrom, Selection.spreadsOf, Selection.spreads, List.mem_append] at hac hout
    rw [expandWith, openUpTo, ih hun hn (fun n hn => hac n (.inl hn)) fun n hn => hout n (.inl hn),
      ihr hun hn (fun n hn => hac n (.inr hn)) fun n hn => hout n (.inr hn)]
  | case3 unopened condition? c sub rest ih ihr =>
    simp only [AcyclicFrom, Selection.spreadsOf, Selection.spreads, List.mem_append] at hac hout
    rw [expandWith, openUpTo, ih hun hn (fun n hn => hac n (.inl hn)) fun n hn => hout n (.inl hn),
      ihr hun hn (fun n hn => hac n (.inr hn)) fun n hn => hout n (.inr hn)]
  | case4 unopened name c rest ih ihr =>
    subst hun
    simp only [AcyclicFrom, Selection.spreadsOf, Selection.spreads, List.mem_append, List.mem_singleton] at hac hout
    have hname : name ∉ opened := hout name (.inl rfl) name .refl
    have hfind := find?_fragmentsOutside (d := d) hname
    have hrest := ihr rfl hn (fun n hn => hac n (.inr hn)) fun n hn => hout n (.inr hn)
    rw [expandWith]
    split
    next f hf =>
      have hdef : d.fragment? name = some f := hfind.symm.trans hf
      obtain ⟨hac', hout'⟩ := acyclicFrom_fragment hdef (hac name (.inl rfl)) (hout name (.inl rfl))
      have hlt := Fragment.length_others_lt hf
      obtain ⟨n, rfl⟩ : ∃ m, n = m + 1 := ⟨n - 1, by omega⟩
      rw [openUpTo, hrest, hdef]
      dsimp only
      rw [ih f hf others_fragmentsOutside (by omega) hac' hout']
    next hf =>
      have hdef : d.fragment? name = none := hfind.symm.trans hf
      rw [openUpTo, hrest, hdef]

/-- Spreads that reach no cycle are open after as many steps as there are fragments. -/
theorem openUpTo_eq_expand {d : Document} {deep : List Selection → List Expanded} {selections : List Selection}
    {n : Nat} (hac : d.AcyclicFrom selections) (hn : d.fragments.length ≤ n) :
    d.openUpTo deep n selections = d.expand selections :=
  openUpTo_eq_expandWith (show d.fragments = d.fragmentsOutside [] by simp [fragmentsOutside]) hn hac (by simp)

end Document

namespace Schema

/-! ## Resolving fields -/

/-- The type of a field, where `deep` resolves the fields `n` calls below it. -/
def fieldTypeUpTo (s : Schema) (deep : FieldResolver) : Nat → FieldResolver
  | 0 => deep
  | n + 1 => s.fieldTypeOver (s.fieldTypeUpTo deep n)

theorem fieldType_eq_upTo (s : Schema) (levels : Nat) :
    s.fieldType levels = s.fieldTypeUpTo unresolved (levels + 1) := by
  induction levels with
  | zero => rfl
  | succ levels ih => exact congrArg s.fieldTypeOver ih

/-- Calls are no deeper than the levels of the selections. -/
theorem fieldTypeUpTo_eq {s : Schema} {deep deep' : FieldResolver} {n m : Nat} {f : FieldDefinition}
    {selections : List Expanded} (hn : Expanded.levelsOf selections < n) (hm : Expanded.levelsOf selections < m) :
    s.fieldTypeUpTo deep n f selections = s.fieldTypeUpTo deep' m f selections := by
  induction n generalizing m f selections with
  | zero => omega
  | succ n ih =>
    obtain ⟨m, rfl⟩ : ∃ k, m = k + 1 := ⟨m - 1, by omega⟩
    refine fieldTypeOver_congr fun g sub hbelow => ?_
    have hlt := hbelow.levels_lt
    exact ih (by omega) (by omega)

/-- The resolver for the fields among selections, as calls that do not stop. -/
theorem objectShape_upTo {s : Schema} {deep : FieldResolver} {n : Nat} {o : ObjectDefinition}
    {selections : List Expanded} {name? : Option String} (hn : Expanded.levelsOf selections ≤ n) :
    s.objectShape (s.fieldTypeUpTo deep n) o selections name? =
      s.objectShape (s.resolverFor selections) o selections name? := by
  refine objectShape_congr fun g sub hs => ?_
  have hlt := hs.levels_lt
  rw [resolverFor, fieldType_eq_upTo]
  exact fieldTypeUpTo_eq (by omega) (by omega)

/-! ## Resolving inputs -/

/-- Resolves the type of a variable or an input field. -/
abbrev InputResolver := TypeRef → TypePosition → Generator PropertyType

/-- The properties of the fields of an input object, which `resolve` serves. -/
def inputFieldsOver (resolve : InputResolver) (d : InputDefinition) : Generator (List Property) :=
  d.fields.mapM fun f => do
    let t ← resolve f.type (.inputField d.name f.name)
    return ⟨f.name, f.name, t, f.description?⟩

/-- The base type of an input object, where `resolve` serves its fields. -/
def inputBaseOver (resolve : InputResolver) (d : InputDefinition) : Generator BaseType := do
  let p ← get
  if d.name ∈ p.expanding || p.registry.contains d.name then return .generated d.name
  else
    let properties ← inside d.name (inputFieldsOver resolve d)
    .generated <$> register ⟨d.name, d.name, .inputObject, d.description?, properties⟩ (some d.name)

/-- The type of a variable or an input field, where `resolve` serves the fields of input objects. -/
def inputTypeOver (s : Schema) (resolve : InputResolver) : InputResolver := fun type position =>
  (PropertyType.ofTypeRef type ·) <$> do
    match ← register.liftExcept (s.resolve type.baseName) with
    | .scalar d => return .scalar d.name (s.hostType d.name)
    | .enumeration d => .generated <$> enumShape d
    | .input d => inputBaseOver resolve d
    | other => throw (.unexpectedTypeKind other.name other.kind position)

/-- The type of an input, where `deep` resolves the inputs `n` calls below it. -/
def inputTypeUpTo (s : Schema) (deep : InputResolver) : Nat → InputResolver
  | 0 => deep
  | n + 1 => s.inputTypeOver (s.inputTypeUpTo deep n)

/-- The input objects of the schema whose names are not among `names`. -/
def inputsOutside (s : Schema) (names : List String) : List TypeDefinition :=
  s.types.filter fun t => t.kind = .inputObject ∧ t.name ∉ names

theorem inputsOutside_lt {s : Schema} {name : String} {names : List String} {d : InputDefinition}
    (h : s.find? name = some (.input d)) (hn : d.name ∉ names) :
    (s.inputsOutside (d.name :: names)).length < (s.inputsOutside names).length := by
  have heq : s.inputsOutside (d.name :: names) = (s.inputsOutside names).filter (·.name ≠ d.name) := by
    simp only [inputsOutside, List.filter_filter]
    apply List.filter_congr
    intro t _
    by_cases ht : t.name = d.name <;> simp [ht]
  rw [heq]
  refine List.length_filter_lt_length_iff_exists.2 ⟨.input d, ?_, by simp [TypeDefinition.name]⟩
  exact List.mem_filter.2 ⟨mem_of_find? h, by simpa [TypeDefinition.kind, TypeDefinition.name] using hn⟩

theorem inputsOutside_length_le (s : Schema) (names : List String) :
    (s.inputsOutside names).length ≤ (s.inputsOutside []).length := by
  simp only [inputsOutside, ← List.countP_eq_length_filter]
  exact List.countP_mono_left fun t _ ht => by simp_all

end Schema

namespace Generator

variable {α β : Type}

theorem ext_outcome {x y : Generator α} (h : ∀ p, outcome x p = outcome y p) : x = y := funext h

theorem outcome_map_congr {x y : Generator α} {p : Progress} (f : α → β) (h : outcome x p = outcome y p) :
    outcome (f <$> x) p = outcome (f <$> y) p := by
  rw [map_eq_pure_bind, map_eq_pure_bind, outcome_bind, outcome_bind, h]

theorem outcome_inside_congr {x y : Generator α} {name : String} {p : Progress}
    (h : outcome x (p.enter name) = outcome y (p.enter name)) :
    outcome (inside name x) p = outcome (inside name y) p := by
  simp only [inside, outcome_bind, outcome_modify, outcome_tryCatch, h]

/-- Steps over a list that agree wherever `I` holds, which they keep, agree over the whole list. -/
theorem outcome_mapM_congr {f g : α → Generator β} {I : Progress → Prop}
    (hkeep : ∀ a p, I p → I (outcome (f a) p).2) (h : ∀ a p, I p → outcome (f a) p = outcome (g a) p) :
    ∀ (l : List α) {p : Progress}, I p → outcome (l.mapM f) p = outcome (l.mapM g) p
  | [], _, _ => rfl
  | a :: l, p, hI => by
    have hI' := hkeep a p hI
    rw [List.mapM_cons, List.mapM_cons, outcome_bind, outcome_bind, ← h a p hI]
    rcases ha : outcome (f a) p with ⟨e | b, p'⟩
    · rfl
    · rw [ha] at hI'
      simp only [outcome_bind, outcome_mapM_congr hkeep h l hI']

end Generator

namespace Schema

/-- Resolvers that agree inside an input object resolve its fields alike. -/
theorem outcome_inputFieldsOver {s : Schema} {resolve : InputResolver} {depth : Nat} {d : InputDefinition}
    {expanding : List String}
    (h : ∀ type position q, q.expanding = expanding →
      outcome (resolve type position) q = outcome (s.inputType depth type position) q)
    {p : Progress} (hp : p.expanding = expanding) :
    outcome (inputFieldsOver resolve d) p = outcome (s.inputFields depth d) p := by
  symm
  refine outcome_mapM_congr (I := fun q => q.expanding = expanding) (fun f q hq => ?_) (fun f q hq => ?_) _ hp
  · have hg : Grows (do
        let t ← s.inputType depth f.type (.inputField d.name f.name)
        return (⟨f.name, f.name, t, f.description?⟩ : Property)) := (inputType_grows _ _ _).bind fun _ => grows_pure
    exact (hg q).expanding.trans hq
  · rw [outcome_bind, outcome_bind, h f.type (.inputField d.name f.name) q hq]

/-- Calls are no deeper than there are input objects to enter. -/
theorem outcome_inputTypeUpTo {s : Schema} {deep : InputResolver} {n depth : Nat} {type : TypeRef}
    {position : TypePosition} {p : Progress} (hn : (s.inputsOutside p.expanding).length < n)
    (hdepth : (s.inputsOutside p.expanding).length ≤ depth) :
    outcome (s.inputTypeUpTo deep n type position) p = outcome (s.inputType depth type position) p := by
  induction n generalizing depth type position p with
  | zero => omega
  | succ n ih =>
    rw [inputType_eq, inputTypeUpTo, inputTypeOver, baseOfInput]
    refine outcome_map_congr _ ?_
    rw [outcome_bind, outcome_bind, outcome_liftExcept]
    cases hres : s.resolve type.baseName with
    | error e => rfl
    | ok t =>
      cases t with
      | scalar | enumeration | object | interface | union => rfl
      | input d =>
        have hd : s.find? type.baseName = some (.input d) := resolve_eq_ok.1 hres
        dsimp only
        rw [inputBaseOver, inputBase.eq_def, outcome_bind, outcome_bind, outcome_get]
        dsimp only
        split
        next => rfl
        next hnew =>
          have hout : d.name ∉ p.expanding := by
            simp only [Bool.or_eq_true, decide_eq_true_eq, not_or] at hnew
            exact hnew.1
          have hlt := inputsOutside_lt hd hout
          obtain ⟨depth, rfl⟩ : ∃ k, depth = k + 1 := ⟨depth - 1, by omega⟩
          -- inside the object there is one less to enter, and no field changes that
          have hfields : outcome (inputFieldsOver (s.inputTypeUpTo deep n) d) (p.enter d.name) =
              outcome (s.inputFields depth d) (p.enter d.name) :=
            outcome_inputFieldsOver (fun _ _ q (hq : q.expanding = d.name :: p.expanding) =>
              ih (by rw [hq]; omega) (by rw [hq]; omega)) rfl
          simp only [outcome_bind, outcome_inside_congr hfields]

/-- The resolver of variables, as calls that do not stop. -/
theorem inputTypeUpTo_eq {s : Schema} {deep : InputResolver} {n : Nat} (hn : (s.inputsOutside []).length < n) :
    s.inputTypeUpTo deep n = s.inputType s.types.length := by
  funext type position
  refine ext_outcome fun p => ?_
  have hle := s.inputsOutside_length_le p.expanding
  have htypes : (s.inputsOutside []).length ≤ s.types.length := List.length_filter_le _ _
  exact outcome_inputTypeUpTo (by omega) (by omega)

/-! ## Operations -/

/-- What is done in the place of calls that are too deep. -/
structure Deep where
  opening : List Selection → List Expanded
  field : FieldResolver
  input : InputResolver

/-- Makes the shapes of an operation by calls at most `n` deep, without rolling back. -/
def operationShapesUpTo (s : Schema) (d : Document) (deep : Deep) (n : Nat) (op : Operation) :
    Generator OperationShape := do
  register.liftExcept (d.checkCycles op.selections)
  let rootName := s.rootType op.kind
  match ← register.liftExcept (s.resolve rootName) with
  | .object root =>
    let dataType ← s.objectShape (s.fieldTypeUpTo deep.field n) root
      (d.openUpTo deep.opening n op.selections) (some (op.dataTypeName rootName))
    let parameters ← op.parameters.mapM fun v => do
      let t ← s.inputTypeUpTo deep.input n v.type (.variable v.name)
      return ⟨v.name, v.name, if v.hasDefault then t.intoNullable else t, none⟩
    return ⟨op.name?, op.kind, dataType, parameters, d.operationSource op⟩
  | other => throw (.unexpectedTypeKind rootName other.kind (.root op.kind))

/-- Makes the shapes of an operation by calls at most `n` deep. If that fails, the registry is as it
was before. -/
def generateOperationUpTo (s : Schema) (d : Document) (deep : Deep) (n : Nat) (op : Operation) :
    Generator OperationShape := do
  let size := (← get).registry.size
  tryCatch (s.operationShapesUpTo d deep n op) fun e => do
    modify fun p => { p with registry := p.registry.truncate size }
    throw e

/-- How deep calls get: the fragments of the document, the levels of the selections with them
opened, and the input objects of the schema with one more call for their scalars and enums. -/
def callDepth (s : Schema) (d : Document) (op : Operation) : Nat :=
  max (max d.fragments.length (Expanded.levelsOf (d.expand op.selections))) ((s.inputsOutside []).length + 1)

theorem operationShapesUpTo_eq {s : Schema} {d : Document} {deep : Deep} {op : Operation} {n : Nat}
    (hn : s.callDepth d op ≤ n) : s.operationShapesUpTo d deep n op = s.operationShapes d op := by
  simp only [callDepth, Nat.max_le] at hn
  obtain ⟨⟨hfragments, hlevels⟩, hinputs⟩ := hn
  refine liftExcept_bind_congr fun _ hcycles => ?_
  have hopen : d.openUpTo deep.opening n op.selections = d.expand op.selections :=
    Document.openUpTo_eq_expand (Document.acyclicFrom_of_checkCycles hcycles) hfragments
  refine liftExcept_bind_congr fun t _ => ?_
  cases t with
  | object root =>
    dsimp only
    rw [hopen, objectShape_upTo hlevels, inputTypeUpTo_eq hinputs]
    rfl
  | scalar | enumeration | interface | union | input => rfl

/-- **Generation ends on every input.** Calls below a field end, whatever the schema says. Calls of
`generateOperation` are never deeper than `callDepth`: whatever deeper calls would do, all that is
registered, returned or reported is the same. And the search for a free name stops. -/
theorem generation_terminates (s : Schema) (d : Document) (op : Operation) :
    (WellFounded fun callee caller : FieldDefinition × List Expanded =>
      s.Below caller.1 caller.2 callee.1 callee.2) ∧
    (∀ deep more, s.generateOperationUpTo d deep (s.callDepth d op + more) op = s.generateOperation d op) ∧
    ∀ (r : Registry) (shape : Shape) (more : Nat),
      ((List.range (r.size + 1 + more)).map (Registry.candidate shape.name)).find? (r.admits shape) =
        some (r.nameFor shape) := by
  refine ⟨s.wellFounded_below, fun deep more => ?_, fun r shape more => ?_⟩
  · rw [generateOperationUpTo, operationShapesUpTo_eq (Nat.le_add_right _ _), generateOperation]
  · rw [List.range_add, List.map_append, List.find?_append, r.find?_candidate]
    rfl

end Schema

end TypedQuery
