/-
Fragments: where one may stand, which fragments a selection reaches, and whether a fragment
reaches itself.
-/
import TypedQuery.GenerationError

namespace TypedQuery

namespace Schema

/-- The definition of a type that the schema has to define. -/
def resolve (s : Schema) (name : String) : Except GenerationError TypeDefinition :=
  match s.find? name with
  | some t => .ok t
  | none => .error (.unknownType name)

/-- A fragment on `condition` may stand within `enclosing` if the two are the same type or have a
run-time type in common. -/
def checkCompatible (s : Schema) (label : FragmentLabel) (condition enclosing : String) :
    Except GenerationError Unit := do
  let _ ← s.resolve condition
  if condition = enclosing || s.overlap condition enclosing then .ok ()
  else .error (.incompatibleFragment label condition enclosing)

end Schema

namespace Document

/-- The fragment that a spread within `enclosing` names. -/
def findFragment (d : Document) (s : Schema) (name enclosing : String) :
    Except GenerationError Fragment :=
  match d.fragment? name with
  | none => .error (.unknownFragment name)
  | some f => do
    s.checkCompatible (.named name) f.condition enclosing
    .ok f

/-- The fragments of the document whose names are not among `names`. -/
def fragmentsOutside (d : Document) (names : List String) : List Fragment :=
  d.fragments.filter (·.name ∉ names)

theorem fragmentsOutside_lt {d : Document} {name : String} {names more : List String} {f : Fragment}
    (h : d.fragment? name = some f) (hn : name ∉ names) (hm : name ∈ more)
    (hsub : ∀ n ∈ names, n ∈ more) :
    (d.fragmentsOutside more).length < (d.fragmentsOutside names).length := by
  have hf : f ∈ d.fragments := List.mem_of_find?_eq_some h
  have hname : f.name = name := by simpa using List.find?_some h
  have hmore : d.fragmentsOutside more = (d.fragmentsOutside names).filter (·.name ∉ more) := by
    simp only [fragmentsOutside, List.filter_filter]
    apply List.filter_congr
    intro g _
    by_cases hg : g.name ∈ more
    · simp [hg]
    · simpa [hg] using mt (hsub g.name) hg
  rw [hmore]
  refine List.length_filter_lt_length_iff_exists.2 ⟨f, ?_, ?_⟩
  · simp [fragmentsOutside, hf, hname, hn]
  · simp [hname, hm]

/-- The names reached from `pending`, in the order in which a depth-first walk first meets them,
after those `reached` before. Names of fragments that are not defined are among them. -/
def reach (d : Document) (reached : List String) : List String → List String
  | [] => reached
  | name :: pending =>
    if name ∈ reached then d.reach reached pending
    else
      match _h : d.fragment? name with
      | none => d.reach (reached ++ [name]) pending
      | some f => d.reach (reached ++ [name]) (Selection.spreadsOf f.selections ++ pending)
termination_by pending => ((d.fragmentsOutside reached).length, pending.length)
decreasing_by
  · simp_wf; simp [Prod.lex_def]
  · have hle : (d.fragmentsOutside (reached ++ [name])).length ≤ (d.fragmentsOutside reached).length := by
      simp only [fragmentsOutside, ← List.countP_eq_length_filter]
      exact List.countP_mono_left fun g _ hg => by simp_all
    simp_wf
    simp [Prod.lex_def]
    omega
  · refine Prod.Lex.left _ _ (fragmentsOutside_lt _h ?_ ?_ ?_) <;> simp_all

/-- The text a client sends: the operation, then each fragment that it reaches. -/
def operationSource (d : Document) (op : Operation) : String :=
  let names := d.reach [] (Selection.spreadsOf op.selections)
  (names.filterMap d.fragment?).foldl (fun text f => text ++ "\n\n" ++ f.source) op.source

/-- Walks the fragments that `names` reach. `path` holds the names on the way from the start, and
`done` those whose walk is over; both stay out of the walk. -/
def walk (d : Document) (path done : List String) :
    List String → Except GenerationError (List String)
  | [] => .ok done
  | name :: rest =>
    if name ∈ done then d.walk path done rest
    else if _hp : name ∈ path then
      .error (.fragmentCycle (path.dropWhile (· ≠ name) ++ [name]))
    else
      match _h : d.fragment? name with
      | none => d.walk path done rest
      | some f =>
        match d.walk (path ++ [name]) done (Selection.spreadsOf f.selections) with
        | .error e => .error e
        | .ok done => d.walk path (done ++ [name]) rest
termination_by names => ((d.fragmentsOutside path).length, names.length)
decreasing_by
  · simp_wf; simp [Prod.lex_def]
  · simp_wf; simp [Prod.lex_def]
  · refine Prod.Lex.left _ _ (fragmentsOutside_lt _h _hp ?_ ?_) <;> simp_all
  · simp_wf; simp [Prod.lex_def]

/-- Refuses selections that reach a fragment which reaches itself, at whatever depth it is
spread. -/
def checkCycles (d : Document) (selections : List Selection) : Except GenerationError Unit := do
  let _ ← d.walk [] [] (Selection.spreadsOf selections)
  .ok ()

end Document

end TypedQuery
