/-
Generating again changes nothing. A step that has run finds, at any later
progress, what it registered: the search for a name stops at the same
candidate, a strict registration meets its own shape, and an input object is
registered or still being expanded. So it returns the same and registers
nothing (`Repeats`). Composition keeps this, since in between the registry
only grows.
-/
import TypedQuery.Proofs.Rollback
import TypedQuery.Proofs.Variables

namespace TypedQuery

open Generator

namespace Generator

variable {α β : Type} {x : Generator α}

/-- Once `x` has run, it runs again from every later progress: it returns the same, and changes
nothing. -/
def Repeats (x : Generator α) : Prop := ∀ ⦃p a p' q⦄, Runs x p a p' → p'.Grows q → Runs x q a q

theorem repeats_pure {a : α} : Repeats (pure a : Generator α) := by
  intro p b p' q h _
  obtain ⟨rfl, rfl⟩ := runs_pure.1 h
  exact runs_pure.2 ⟨rfl, rfl⟩

theorem repeats_throw {e : GenerationError} : Repeats (throw e : Generator α) :=
  fun _ _ _ _ h _ => absurd h runs_throw

theorem Repeats.bind {f : α → Generator β} (hx : Repeats x) (hf : ∀ a, Repeats (f a)) (hg : ∀ a, Grows (f a)) :
    Repeats (x >>= f) := by
  intro p b p' q h hq
  obtain ⟨a, p₁, ha, hb⟩ := runs_bind.1 h
  exact runs_bind.2 ⟨a, q, hx ha (((hg a).runs hb).trans hq), hf a hb hq⟩

theorem register_repeats (shape : Shape) (name? : Option String) : Repeats (register shape name?) := by
  intro p n p' q h hq
  cases name? with
  | none =>
    simp only [register, runs_bind, runs_get, runs_set, runs_pure] at h ⊢
    obtain ⟨_, _, ⟨rfl, rfl⟩, _, _, rfl, rfl, rfl⟩ := h
    have hagain := Registry.registerDeduplicated_of_extends hq.registry
    exact ⟨q, q, ⟨rfl, rfl⟩, ⟨⟩, q, by rw [hagain], by rw [hagain], rfl⟩
  | some name =>
    have hheld := hq.registry.lookup? (register_runs h).1.held
    simp only [register, runs_bind, runs_get, runs_set, runs_pure, runs_liftExcept] at h ⊢
    obtain ⟨_, _, -, r, _, -, _, _, -, rfl, -⟩ := h
    exact ⟨q, q, ⟨rfl, rfl⟩, q.registry, q, ⟨Registry.register_of_held hheld, rfl⟩, ⟨⟩, q, rfl, rfl, rfl⟩

/-- Composition keeps repetition, together with growth. -/
theorem closed_repeats : Closed fun _ x => Grows x ∧ Repeats x where
  pure _ := ⟨grows_pure, repeats_pure⟩
  throw _ := ⟨grows_throw, repeats_throw⟩
  bind hx hf := ⟨hx.1.bind fun a => (hf a).1, hx.2.bind (fun a => (hf a).2) fun a => (hf a).1⟩
  register shape name? := ⟨register_grows shape name?, register_repeats shape name?⟩

end Generator

namespace Schema

variable {s : Schema}

/-! ## Inputs -/

/-- An input object that is being expanded or is registered is referred to by its name. -/
theorem inputBase_known {depth : Nat} {d : InputDefinition} {p : Progress}
    (h : d.name ∈ p.expanding ∨ d.name ∈ p.registry.names) :
    Runs (s.inputBase depth d) p (.generated d.name) p := by
  have hknown : (decide (d.name ∈ p.expanding) || p.registry.contains d.name) = true := by
    simpa [Registry.contains_iff] using h
  rw [inputBase.eq_def, Runs, outcome_bind, outcome_get]
  simp only [hknown, if_true, outcome_pure]

theorem inputBase_exhausted {d : InputDefinition} {p : Progress} :
    Runs (s.inputBase 0 d) p (.generated d.name) p := by
  rw [inputBase.eq_def, Runs, outcome_bind, outcome_get]
  dsimp only
  split <;> rfl

theorem inputType_of_input {depth : Nat} {type : TypeRef} {position : TypePosition} {d : InputDefinition}
    {base : BaseType} {p p' : Progress} (hd : s.find? type.baseName = some (.input d))
    (h : Runs (s.inputBase depth d) p base p') :
    Runs (s.inputType depth type position) p (.ofTypeRef type base) p' := by
  rw [inputType_eq]
  exact runs_map.2 ⟨base, runs_bind.2 ⟨.input d, p, runs_liftExcept.2 ⟨resolve_eq_ok.2 hd, rfl⟩, h⟩, rfl⟩

/-- An input that has been resolved is resolved alike: by then its object is registered, or it is
being expanded as it was. -/
theorem inputType_repeats (depth : Nat) (type : TypeRef) (position : TypePosition) :
    Repeats (s.inputType depth type position) := by
  intro p t p' q h hq
  obtain ⟨base, hbase, rfl⟩ := inputType_runs h
  cases hbase with
  | scalar hd =>
    rw [inputType_eq]
    exact runs_map.2 ⟨_, runs_bind.2 ⟨_, q, runs_liftExcept.2 ⟨resolve_eq_ok.2 hd, rfl⟩, runs_pure.2 ⟨rfl, rfl⟩⟩, rfl⟩
  | enumeration hd hr =>
    rw [inputType_eq]
    have hagain := register_repeats _ _ hr hq
    exact runs_map.2 ⟨_, runs_bind.2 ⟨_, q, runs_liftExcept.2 ⟨resolve_eq_ok.2 hd, rfl⟩,
      runs_map.2 ⟨_, hagain, rfl⟩⟩, rfl⟩
  | known hd hk =>
    refine inputType_of_input hd (inputBase_known (hk.imp ?_ ?_))
    · exact fun hmem => hq.expanding ▸ hmem
    · exact names_of_extends hq.registry
  | exhausted hd _ => exact inputType_of_input hd inputBase_exhausted
  | fields hd hn hf hr =>
    obtain ⟨hk, hname⟩ := register_runs hr
    obtain rfl := Option.some.inj (hname.resolve_right (by simp))
    exact inputType_of_input hd (inputBase_known (.inr (mem_names_of_lookup? (hq.registry.lookup? hk.held))))

theorem variableProperties_repeats (parameters : List VariableDefinition) :
    Grows (s.variableProperties parameters) ∧ Repeats (s.variableProperties parameters) :=
  closed_repeats.mapM (fun _ => closed_repeats.bind ⟨inputType_grows _ _ _, inputType_repeats _ _ _⟩
    fun _ => closed_repeats.pure _) _

/-! ## Operations -/

theorem generateOperation_repeats (d : Document) (op : Operation) : Repeats (s.generateOperation d op) := by
  intro p shape p' q h hq
  have hrepeats := (operationShapes_closed closed_repeats (variableProperties_repeats (s := s)) d op).2
  exact generateOperation_runs.2 (hrepeats (generateOperation_runs.1 h) hq)

/-- Calls let the registry grow, those that fail leave it as it was. -/
theorem calls_grows (d : Document) (ops : List Operation) (p : Progress) : p.Grows (s.calls d ops p).2 :=
  (calls_induct (s := s) (d := d) (I := fun _ => True) (Q := fun _ _ => True) (fun _ _ _ _ _ => trivial)
    (fun _ _ _ _ _ _ => ⟨trivial, trivial⟩) ops trivial).2.1

/-- **Generation is idempotent within a run.** An operation that has succeeded in a sequence of calls,
called again at the end, whatever calls were made in between: it succeeds, returns the same, and
leaves everything as it is. -/
theorem generateOperation_again {d : Document} {op : Operation} {shape : OperationShape} :
    ∀ {ops : List Operation} {p : Progress}, (op, .ok shape) ∈ s.answers d ops p →
      Runs (s.generateOperation d op) (s.calls d ops p).2 shape (s.calls d ops p).2
  | [], _, h => by simp [answers, calls] at h
  | first :: ops, p, h => by
    rcases hfirst : outcome (s.generateOperation d first) p with ⟨e | shape', p'⟩
    · rw [answers, calls_cons_failed hfirst, List.zip_cons_cons, List.mem_cons] at h
      rw [calls_cons_failed hfirst]
      rcases h with h | h
      · cases (Prod.mk.inj h).2
      · exact generateOperation_again h
    · rw [answers, calls_cons_succeeded hfirst, List.zip_cons_cons, List.mem_cons] at h
      rw [calls_cons_succeeded hfirst]
      rcases h with h | h
      · obtain ⟨rfl, hshape⟩ := Prod.mk.inj h
        obtain rfl := Except.ok.inj hshape
        exact generateOperation_repeats d op hfirst (calls_grows d ops p')
      · exact generateOperation_again h

/-! A query called again after a mutation, which fails, and another query. -/

def findCalls : List Operation := [findQuery, ⟨none, .mutation, [], [], ""⟩, foundQuery]

theorem findQuery_again : ∃ shape, (findQuery, .ok shape) ∈ filters.answers ⟨[], []⟩ findCalls .start ∧
    Runs (filters.generateOperation ⟨[], []⟩ findQuery) (filters.calls ⟨[], []⟩ findCalls .start).2 shape
      (filters.calls ⟨[], []⟩ findCalls .start).2 := by
  have hhead : (filters.answers ⟨[], []⟩ findCalls .start).head? = some (findQuery, .ok ⟨some "Find", .query,
      "FindData", [⟨"where", "where", .named (.generated "Filter") false, none⟩],
      "query Find($where: Filter!) \x7b found \x7d"⟩) := by cbv
  have hmem := List.mem_of_mem_head? hhead
  exact ⟨_, hmem, generateOperation_again hmem⟩

end Schema

end TypedQuery
