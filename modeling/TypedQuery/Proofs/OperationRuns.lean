/-
Runs of whole operations. An operation that fails leaves everything as it was
(`outcome_generateOperation`): generators only let the registry grow, so
cutting it back to its old size restores it. What every operation that
succeeds preserves is therefore true after any sequence of calls
(`calls_induct`).
-/
import TypedQuery.Proofs.InputRuns
import TypedQuery.Proofs.Opening
import TypedQuery.Proofs.ShapeRuns

namespace TypedQuery

open Generator

namespace Schema

theorem operationShapes_closed {s : Schema} {P : (α : Type) → Generator α → Prop} (hP : Closed P)
    (hinputs : ∀ parameters, P _ (s.variableProperties parameters)) (d : Document) (op : Operation) :
    P _ (s.operationShapes d op) := by
  refine hP.bind (hP.liftExcept _) fun _ => hP.bind (hP.liftExcept _) fun t => ?_
  cases t with
  | object root =>
    exact hP.bind (objectShape_closed hP (fieldType_closed hP _) _ _ _) fun _ =>
      hP.bind (hinputs _) fun _ => hP.pure _
  | scalar | enumeration | interface | union | input => exact hP.throw _

theorem operationShapes_grows {s : Schema} (d : Document) (op : Operation) :
    Grows (s.operationShapes d op) :=
  operationShapes_closed closed_grows variableProperties_grows d op

/-- Only an operation that succeeds changes anything. -/
theorem outcome_generateOperation {s : Schema} (d : Document) (op : Operation) (p : Progress) :
    outcome (s.generateOperation d op) p = match outcome (s.operationShapes d op) p with
      | (.ok shape, p') => (.ok shape, p')
      | (.error e, _) => (.error e, p) := by
  have hg := operationShapes_grows (s := s) d op p
  simp only [generateOperation, outcome_bind, outcome_get, outcome_tryCatch]
  rcases h : outcome (s.operationShapes d op) p with ⟨r | r, p'⟩
  · rw [h] at hg
    have hback : ({ p' with registry := p'.registry.truncate p.registry.size } : Progress) = p := by
      rw [Registry.truncate_of_extends hg.registry, hg.expanding]
    simp only [outcome_modify, outcome_throw, hback]
  · rfl

theorem generateOperation_runs {s : Schema} {d : Document} {op : Operation} {shape : OperationShape}
    {p p' : Progress} :
    Runs (s.generateOperation d op) p shape p' ↔ Runs (s.operationShapes d op) p shape p' := by
  rw [Runs, outcome_generateOperation, Runs]
  rcases outcome (s.operationShapes d op) p with ⟨r | r, q⟩ <;> simp

/-- An operation that succeeds has made the shape of its data from its expanded selections, which
reach no cycle of fragments, and after that the properties of its variables. -/
theorem operationShapes_runs {s : Schema} {d : Document} {op : Operation} {shape : OperationShape}
    {p p' : Progress} (h : Runs (s.operationShapes d op) p shape p') :
    d.AcyclicFrom op.selections ∧ ∃ root p₁, s.find? (s.rootType op.kind) = some (.object root) ∧
      Runs (s.objectShape (s.resolverFor (d.expand op.selections)) root (d.expand op.selections)
        (some (op.dataTypeName (s.rootType op.kind)))) p shape.dataType p₁ ∧
      Runs (s.variableProperties op.parameters) p₁ shape.parameters p' := by
  obtain ⟨_, p₀, hlift, h⟩ := runs_bind.1 h
  obtain ⟨hcycles, rfl⟩ := runs_liftExcept.1 hlift
  obtain ⟨t, p₀, hlift, h⟩ := runs_bind.1 h
  obtain ⟨hres, rfl⟩ := runs_liftExcept.1 hlift
  refine ⟨Document.acyclicFrom_of_checkCycles hcycles, ?_⟩
  cases t with
  | object root =>
    obtain ⟨dataType, p₁, hobj, h⟩ := runs_bind.1 h
    obtain ⟨parameters, p₂, hvars, hpure⟩ := runs_bind.1 h
    obtain ⟨rfl, rfl⟩ := runs_pure.1 hpure
    exact ⟨root, p₁, resolve_eq_ok.1 hres, hobj, hvars⟩
  | scalar | enumeration | interface | union | input => exact absurd h runs_throw

/-- The text of an operation is that of the document, whatever its shapes are. -/
theorem operationShapes_source {s : Schema} {d : Document} {op : Operation} {shape : OperationShape}
    {p p' : Progress} (h : Runs (s.operationShapes d op) p shape p') : shape.source = d.operationSource op := by
  obtain ⟨_, _, -, h⟩ := runs_bind.1 h
  obtain ⟨t, _, -, h⟩ := runs_bind.1 h
  cases t with
  | object root =>
    obtain ⟨dataType, _, -, h⟩ := runs_bind.1 h
    obtain ⟨parameters, _, -, hpure⟩ := runs_bind.1 h
    obtain ⟨rfl, -⟩ := runs_pure.1 hpure
    rfl
  | scalar | enumeration | interface | union | input => exact absurd h runs_throw

/-! ## Sequences of calls -/

/-- Calls of `generateOperation` one after the other, whatever each returns: the results, and the
progress after the last. -/
def calls (s : Schema) (d : Document) : List Operation → Progress →
    List (Except GenerationError OperationShape) × Progress
  | [], p => ([], p)
  | op :: ops, p =>
    let (r, p) := outcome (s.generateOperation d op) p
    let (rs, p) := s.calls d ops p
    (r :: rs, p)

/-- What each of the operations, where it succeeds, preserves and establishes of its result holds after
any calls of them, of the result of each. -/
theorem calls_induct_of_mem {s : Schema} {d : Document} {I : Progress → Prop} {Q : Registry → OperationShape → Prop}
    (mono : ∀ ⦃r r' shape⦄, r'.Extends r → Q r shape → Q r' shape) : ∀ (ops : List Operation) {p : Progress}
      (_ : ∀ op ∈ ops, ∀ ⦃p shape p'⦄, I p → Runs (s.operationShapes d op) p shape p' → I p' ∧ Q p'.registry shape),
      I p → I (s.calls d ops p).2 ∧ p.Grows (s.calls d ops p).2 ∧
        ∀ shape, .ok shape ∈ (s.calls d ops p).1 → Q (s.calls d ops p).2.registry shape
  | [], p, _, hI => ⟨hI, .refl p, by simp [calls]⟩
  | op :: ops, p, step, hI => by
    have hops := fun op hop => step op (List.mem_cons_of_mem _ hop)
    simp only [calls, outcome_generateOperation]
    have hg := operationShapes_grows (s := s) d op p
    rcases h : outcome (s.operationShapes d op) p with ⟨e | shape, q⟩
    · obtain ⟨hI', hg', hall⟩ := calls_induct_of_mem mono ops hops hI
      exact ⟨hI', hg', by simpa using hall⟩
    · rw [h] at hg
      obtain ⟨hIq, hQ⟩ := step op List.mem_cons_self hI h
      obtain ⟨hI', hg', hall⟩ := calls_induct_of_mem mono ops hops hIq
      refine ⟨hI', hg.trans hg', ?_⟩
      intro shape' hmem
      rcases List.mem_cons.1 hmem with heq | hmem
      · cases heq
        exact mono hg'.registry hQ
      · exact hall shape' hmem

/-- What every operation that succeeds preserves and establishes of its result holds after any
calls, of the result of each. -/
theorem calls_induct {s : Schema} {d : Document} {I : Progress → Prop} {Q : Registry → OperationShape → Prop}
    (mono : ∀ ⦃r r' shape⦄, r'.Extends r → Q r shape → Q r' shape)
    (step : ∀ ⦃op p shape p'⦄, I p → Runs (s.operationShapes d op) p shape p' → I p' ∧ Q p'.registry shape)
    (ops : List Operation) {p : Progress} (hI : I p) :
    I (s.calls d ops p).2 ∧ p.Grows (s.calls d ops p).2 ∧
      ∀ shape, .ok shape ∈ (s.calls d ops p).1 → Q (s.calls d ops p).2.registry shape :=
  calls_induct_of_mem mono ops (fun _ _ _ _ _ hI h => step hI h) hI

end Schema

end TypedQuery
