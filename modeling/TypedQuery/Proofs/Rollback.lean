/-
A failed operation leaves no trace. Cutting the registry back to its old size
restores it because every generator only adds at the end, and the input
objects being expanded are those from before because `inside` takes its name
out on both ways. So calls that fail may be left out of a sequence: the
others return what they returned, and leave the same progress
(`failed_calls_leave_no_trace`).
-/
import TypedQuery.Proofs.OperationRuns

namespace TypedQuery

open Generator

namespace Schema

/-- A call that fails leaves the registry and the input objects being expanded as they were. -/
theorem generateOperation_failed {s : Schema} {d : Document} {op : Operation} {p p' : Progress}
    {e : GenerationError} (h : outcome (s.generateOperation d op) p = (.error e, p')) : p' = p := by
  rw [outcome_generateOperation] at h
  rcases hop : outcome (s.operationShapes d op) p with ⟨e' | shape, q⟩
  · rw [hop] at h
    exact (Prod.mk.inj h).2.symm
  · rw [hop] at h
    cases (Prod.mk.inj h).1

/-- Calls, each with what it returns. -/
def answers (s : Schema) (d : Document) (ops : List Operation) (p : Progress) :
    List (Operation × Except GenerationError OperationShape) :=
  ops.zip (s.calls d ops p).1

/-- The calls that succeed, each with what it returns. -/
def successes (s : Schema) (d : Document) (ops : List Operation) (p : Progress) :
    List (Operation × Except GenerationError OperationShape) :=
  (s.answers d ops p).filter (·.2.isOk)

theorem calls_cons_failed {s : Schema} {d : Document} {op : Operation} {ops : List Operation} {p p' : Progress}
    {e : GenerationError} (h : outcome (s.generateOperation d op) p = (.error e, p')) :
    s.calls d (op :: ops) p = (.error e :: (s.calls d ops p).1, (s.calls d ops p).2) := by
  simp only [calls, h, generateOperation_failed h]

theorem calls_cons_succeeded {s : Schema} {d : Document} {op : Operation} {ops : List Operation} {p p' : Progress}
    {shape : OperationShape} (h : Runs (s.generateOperation d op) p shape p') :
    s.calls d (op :: ops) p = (.ok shape :: (s.calls d ops p').1, (s.calls d ops p').2) := by
  rw [Runs] at h
  simp only [calls, h]

/-- The calls that succeed return the same and leave the same when they are made alone. -/
theorem calls_successes {s : Schema} {d : Document} (ops : List Operation) (p : Progress) :
    s.calls d ((s.successes d ops p).map (·.1)) p =
      ((s.successes d ops p).map (·.2), (s.calls d ops p).2) := by
  induction ops generalizing p with
  | nil => rfl
  | cons op ops ih =>
    rcases h : outcome (s.generateOperation d op) p with ⟨e | shape, p'⟩
    · have hrest : s.successes d (op :: ops) p = s.successes d ops p := by
        simp only [successes, answers, calls_cons_failed h, List.zip_cons_cons]
        exact List.filter_cons_of_neg (by simp [Except.isOk, Except.toBool])
      rw [hrest, ih, calls_cons_failed h]
    · have hrest : s.successes d (op :: ops) p = (op, .ok shape) :: s.successes d ops p' := by
        simp only [successes, answers, calls_cons_succeeded h, List.zip_cons_cons]
        exact List.filter_cons_of_pos rfl
      rw [hrest, List.map_cons, List.map_cons, calls_cons_succeeded h, calls_cons_succeeded h, ih]

/-- **A failed operation leaves no trace.** A call that returns an error leaves the registry and the
input objects being expanded as they were before it. In any sequence of calls, all that fail may be
left out: each other call returns the same, and the progress at the end is the same. -/
theorem failed_calls_leave_no_trace (s : Schema) (d : Document) :
    (∀ op p e p', outcome (s.generateOperation d op) p = (.error e, p') → p' = p) ∧
    ∀ ops p, s.calls d ((s.successes d ops p).map (·.1)) p =
      ((s.successes d ops p).map (·.2), (s.calls d ops p).2) :=
  ⟨fun _ _ _ _ h => generateOperation_failed h, calls_successes⟩

end Schema

end TypedQuery
