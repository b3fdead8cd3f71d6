/-
Field collection as GraphQL has it: one pass through the selections in the
order of the text, in which each fragment is opened once and a conditional
selection is kept or left out (`Document.fieldsFor`). What it collects are the
fields that occur, or those that are not conditional (`mem_fieldsFor`), since a
field that is first met inside a fragment already opened is found without
opening that fragment again (`Occurs.without`). So with all conditional
selections kept it gives the collected keys, and with none of them the
unconditional ones.
-/
import TypedQuery.Proofs.Execution
import TypedQuery.Proofs.FieldCollection

namespace TypedQuery

theorem Selection.sizeOf_append (selections more : List Selection) :
    sizeOf (selections ++ more) + 1 = sizeOf selections + sizeOf more := by
  induction selections with
  | nil => simp; omega
  | cons selection selections ih => simp; omega

namespace Document

theorem fragmentsOutside_cons_le (d : Document) (name : String) (names : List String) :
    (d.fragmentsOutside (name :: names)).length ≤ (d.fragmentsOutside names).length := by
  simp only [fragmentsOutside, ← List.countP_eq_length_filter]
  refine List.countP_mono_left fun f _ hf => ?_
  simp_all

/-! ## The algorithm -/

/-- The fields that field collection finds for the run-time type `R`, in its order; grouped by their keys they are
its result. `visited` holds the fragments that were opened, and `included` says whether conditional selections are
kept. -/
def collectFields (d : Document) (s : Schema) (R : String) (included : Bool) (visited : List String) :
    List Selection → List KeptField
  | [] => []
  | selection :: rest =>
    if selection.isConditional && !included then d.collectFields s R included visited rest
    else
      match selection with
      | .field alias? name _ sub => ⟨alias?.getD name, name, sub⟩ :: d.collectFields s R included visited rest
      | .inline condition? _ inner =>
        if condition?.all (R ∈ s.possibleTypes ·) then d.collectFields s R included visited (inner ++ rest)
        else d.collectFields s R included visited rest
      | .spread name _ =>
        if _hn : name ∈ visited then d.collectFields s R included visited rest
        else
          match _hf : d.fragment? name with
          | none => d.collectFields s R included (name :: visited) rest
          | some f =>
            if R ∈ s.possibleTypes f.condition then
              d.collectFields s R included (name :: visited) (f.selections ++ rest)
            else d.collectFields s R included (name :: visited) rest
termination_by selections => ((d.fragmentsOutside visited).length, sizeOf selections)
decreasing_by
  · exact Prod.Lex.right _ (by simp)
  · exact Prod.Lex.right _ (by simp)
  · have := Selection.sizeOf_append inner rest
    exact Prod.Lex.right _ (by simp; omega)
  · exact Prod.Lex.right _ (by simp)
  · exact Prod.Lex.right _ (by simp)
  · have := d.fragmentsOutside_cons_le name visited
    simp only [Prod.lex_def, List.cons.sizeOf_spec]
    omega
  · exact Prod.Lex.left _ _ (fragmentsOutside_lt _hf _hn (by simp) (by simp +contextual))
  · exact Prod.Lex.left _ _ (fragmentsOutside_lt _hf _hn (by simp) (by simp +contextual))

/-- The fields that field collection finds in selections. -/
def fieldsFor (d : Document) (s : Schema) (R : String) (included : Bool) (selections : List Selection) :
    List KeptField :=
  d.collectFields s R included [] selections

/-! ## Fragments that are left out -/

/-- The document without the fragments of these names. -/
def without (d : Document) (names : List String) : Document := ⟨d.operations, d.fragmentsOutside names⟩

theorem fragment?_without (d : Document) (names : List String) (name : String) :
    (d.without names).fragment? name = if name ∈ names then none else d.fragment? name := by
  split
  next hin =>
    rw [fragment?, without, List.find?_eq_none]
    intro f hf hname
    have hout : f.name ∉ names := by simpa using (List.mem_filter.1 hf).2
    exact hout ((of_decide_eq_true hname).symm ▸ hin)
  next hout => exact find?_fragmentsOutside hout

section Occurs

variable {d : Document} {applies : String → Prop} {names : List String} {name : String} {selections : List Selection}
  {key field : String} {c : Bool} {below : List Selection}

theorem Occurs.mono_fragments {d' : Document} (h : d.Occurs applies selections key field c below)
    (hsub : ∀ n f, d.fragment? n = some f → d'.fragment? n = some f) :
    d'.Occurs applies selections key field c below := by
  induction h with
  | field h => exact .field h
  | inline h ha _ ih => exact .inline h ha ih
  | spread h hf ha _ ih => exact .spread h (hsub _ _ hf) ha ih

theorem without_nil : (d.without []).Occurs applies selections key field c below ↔
    d.Occurs applies selections key field c below := by
  have hsame : ∀ n, (d.without []).fragment? n = d.fragment? n := fun n => by simp [fragment?_without]
  exact ⟨fun h => h.mono_fragments fun n f hf => hsame n ▸ hf,
    fun h => h.mono_fragments fun n f hf => (hsame n).symm ▸ hf⟩

theorem Occurs.of_without_cons (h : (d.without (name :: names)).Occurs applies selections key field c below) :
    (d.without names).Occurs applies selections key field c below := by
  refine h.mono_fragments fun n f hf => ?_
  simp only [fragment?_without, List.mem_cons] at hf ⊢
  split at hf
  next => cases hf
  next hout => rw [if_neg fun hin => hout (.inr hin), hf]

/-- A field that occurs does so without the fragment `name`, or else within that fragment, behind its last spread on
the way. -/
theorem Occurs.without (h : (d.without names).Occurs applies selections key field c below) (name : String) :
    (d.without (name :: names)).Occurs applies selections key field c below ∨
      ∃ f, (d.without names).fragment? name = some f ∧ applies f.condition ∧ ∃ c', (c' = true → c = true) ∧
        (d.without (name :: names)).Occurs applies f.selections key field c' below := by
  induction h with
  | field h => exact .inl (.field h)
  | inline h ha _ ih =>
    rcases ih with ho | ⟨f, hf, hap, c', hc, ho⟩
    · exact .inl (.inline h ha ho)
    · exact .inr ⟨f, hf, hap, c', by simp +contextual [hc], ho⟩
  | @spread _ n _ g _ _ c' _ h hg ha _ ih =>
    rcases ih with ho | ⟨f, hf, hap, c', hc, ho⟩
    · by_cases hn : n = name
      · subst hn
        exact .inr ⟨g, hg, ha, c', by simp +contextual, ho⟩
      · refine .inl (.spread h ?_ ha ho)
        simpa [fragment?_without, hn] using hg
    · exact .inr ⟨f, hf, hap, c', by simp +contextual [hc], ho⟩

end Occurs

/-! ## What the algorithm finds -/

/-- The field `k` occurs for the run-time type `R`, and no conditional selection that is left out is on the way. -/
def Finds (d : Document) (s : Schema) (R : String) (included : Bool) (selections : List Selection) (k : KeptField) :
    Prop :=
  ∃ c, (c = true → included = true) ∧ d.Occurs (R ∈ s.possibleTypes ·) selections k.key k.name c k.selections

section Finds

variable {d : Document} {s : Schema} {R : String} {included : Bool} {selections more : List Selection} {k : KeptField}

theorem finds_append : d.Finds s R included (selections ++ more) k ↔
    d.Finds s R included selections k ∨ d.Finds s R included more k := by
  simp only [Finds, occurs_append, and_or_left, exists_or]

theorem finds_cons {selection : Selection} : d.Finds s R included (selection :: more) k ↔
    d.Finds s R included [selection] k ∨ d.Finds s R included more k :=
  (finds_append : d.Finds s R included ([selection] ++ more) k ↔ _)

theorem not_finds_leftOut {selection : Selection} (h : (selection.isConditional && !included) = true) :
    ¬ d.Finds s R included [selection] k := by
  rintro ⟨c, hc, ho⟩
  simp only [Bool.and_eq_true, Bool.not_eq_true'] at h
  cases c with
  | false => simp [isConditional_of_occurs ho] at h
  | true => simp [hc] at h

/-- Where a selection is kept, its own flag does not matter. -/
theorem kept_iff {b c : Bool} (h : ¬ (b && !included) = true) :
    ((b || c) = true → included = true) ↔ (c = true → included = true) := by
  cases b <;> cases included <;> simp_all

theorem finds_field {alias? : Option String} {name : String} {c : Bool} {sub : List Selection}
    (h : ¬ ((Selection.field alias? name c sub).isConditional && !included) = true) :
    d.Finds s R included [.field alias? name c sub] k ↔ k = ⟨alias?.getD name, name, sub⟩ := by
  obtain ⟨key, field, below⟩ := k
  simp only [Finds, occurs_field, KeptField.mk.injEq]
  constructor
  · rintro ⟨_, -, hkey, hfield, -, hbelow⟩
    exact ⟨hkey, hfield, hbelow⟩
  · rintro ⟨hkey, hfield, hbelow⟩
    exact ⟨c, by simpa [Selection.isConditional] using h, hkey, hfield, rfl, hbelow⟩

theorem finds_inline {condition? : Option String} {c : Bool} {inner : List Selection}
    (h : ¬ ((Selection.inline condition? c inner).isConditional && !included) = true) :
    d.Finds s R included [.inline condition? c inner] k ↔
      condition?.all (R ∈ s.possibleTypes ·) = true ∧ d.Finds s R included inner k := by
  have hall : condition?.all (R ∈ s.possibleTypes ·) = true ↔ ∀ t ∈ condition?, R ∈ s.possibleTypes t := by
    cases condition? <;> simp
  rw [hall]
  simp only [Finds, occurs_inline]
  constructor
  · rintro ⟨_, hc, ha, c', rfl, ho⟩
    exact ⟨ha, c', (kept_iff h).1 hc, ho⟩
  · rintro ⟨ha, c', hc, ho⟩
    exact ⟨_, (kept_iff h).2 hc, ha, c', rfl, ho⟩

theorem finds_spread {name : String} {c : Bool} (h : ¬ ((Selection.spread name c).isConditional && !included) = true) :
    d.Finds s R included [.spread name c] k ↔
      ∃ f, d.fragment? name = some f ∧ R ∈ s.possibleTypes f.condition ∧ d.Finds s R included f.selections k := by
  simp only [Finds, occurs_spread]
  constructor
  · rintro ⟨_, hc, f, hf, ha, c', rfl, ho⟩
    exact ⟨f, hf, ha, c', (kept_iff h).1 hc, ho⟩
  · rintro ⟨f, hf, ha, c', hc, ho⟩
    exact ⟨_, (kept_iff h).2 hc, f, hf, ha, c', rfl, ho⟩

/-- With the spread of a fragment in front, what is found is found in the fragment or behind it, where the fragment is
not opened again. -/
theorem finds_opened {names : List String} {name : String} {f : Fragment} (hn : name ∉ names)
    (hf : d.fragment? name = some f) :
    (d.without names).Finds s R included f.selections k ∨ (d.without names).Finds s R included more k ↔
      (d.without (name :: names)).Finds s R included (f.selections ++ more) k := by
  have hfound : (d.without names).fragment? name = some f := by rw [fragment?_without, if_neg hn, hf]
  have hin : ∀ {selections}, (d.without names).Finds s R included selections k →
      (d.without (name :: names)).Finds s R included selections k ∨
        (d.without (name :: names)).Finds s R included f.selections k := by
    rintro selections ⟨c, hc, ho⟩
    rcases ho.without name with ho | ⟨g, hg, -, c', hc', ho⟩
    · exact .inl ⟨c, hc, ho⟩
    · obtain rfl := Option.some.inj (hfound.symm.trans hg)
      exact .inr ⟨c', hc ∘ hc', ho⟩
  have hout : ∀ {selections}, (d.without (name :: names)).Finds s R included selections k →
      (d.without names).Finds s R included selections k :=
    fun ⟨c, hc, ho⟩ => ⟨c, hc, ho.of_without_cons⟩
  rw [finds_append]
  constructor
  · rintro (h | h)
    · exact .inl ((hin h).elim id id)
    · exact (hin h).symm
  · exact Or.imp hout hout

/-- A fragment that is not opened for `R` has nothing for it. -/
theorem finds_closed {names : List String} {name : String}
    (h : ∀ f, d.fragment? name = some f → R ∉ s.possibleTypes f.condition) :
    (d.without names).Finds s R included selections k ↔
      (d.without (name :: names)).Finds s R included selections k := by
  constructor
  · rintro ⟨c, hc, ho⟩
    rcases ho.without name with ho | ⟨f, hf, ha, -⟩
    · exact ⟨c, hc, ho⟩
    · rw [fragment?_without] at hf
      split at hf
      · cases hf
      · exact absurd ha (h f hf)
  · rintro ⟨c, hc, ho⟩
    exact ⟨c, hc, ho.of_without_cons⟩

theorem mem_collectFields (visited : List String) (selections : List Selection) :
    k ∈ d.collectFields s R included visited selections ↔ (d.without visited).Finds s R included selections k := by
  fun_induction collectFields d s R included visited selections with
  | case1 visited => simp [Finds]
  | case2 visited selection rest hleft ih => rw [ih, finds_cons, or_iff_right (not_finds_leftOut hleft)]
  | case3 visited rest alias? name c sub hkept ih => rw [List.mem_cons, ih, finds_cons, finds_field hkept]
  | case4 visited rest condition? c inner ha hkept ih =>
    rw [ih, finds_append, finds_cons, finds_inline hkept, ha]
    simp
  | case5 visited rest condition? c inner ha hkept ih =>
    rw [ih, finds_cons, finds_inline hkept]
    simp [ha]
  | case6 visited rest name c hin hkept ih =>
    rw [ih, finds_cons, finds_spread hkept]
    simp [fragment?_without, hin]
  | case7 visited rest name c hout hf hkept ih =>
    rw [ih, finds_cons, finds_spread hkept, ← finds_closed (by simp [hf])]
    simp [fragment?_without, hout, hf]
  | case8 visited rest name c hout f hf ha hkept ih =>
    rw [ih, finds_cons, finds_spread hkept, ← finds_opened hout hf]
    simp [fragment?_without, hout, hf, ha]
  | case9 visited rest name c hout f hf ha hkept ih =>
    rw [ih, finds_cons, finds_spread hkept, ← finds_closed (by simp [hf, ha])]
    simp [fragment?_without, hout, hf, ha]

/-- Field collection finds the fields that occur; without conditional selections, those that are not conditional. -/
theorem mem_fieldsFor : k ∈ d.fieldsFor s R included selections ↔
    ∃ c, (c = true → included = true) ∧ d.Occurs (R ∈ s.possibleTypes ·) selections k.key k.name c k.selections := by
  rw [fieldsFor, mem_collectFields, Finds]
  simp only [without_nil]

end Finds

end Document

/-! ## Collected keys -/

namespace Expanded

variable {s : Schema} {d : Document} {R : String} {selections : List Selection} {expanded : List Expanded}
  {fields : List CollectedField}

/-- The occurrences of a document's selections are those that collection on an object meets in their expansion. -/
theorem occurs_covers_iff {o : ObjectDefinition} (ho : s.find? R = some (.object o))
    (hopens : d.Opens selections expanded) {key name : String} {c : Bool} :
    (∃ below, d.Occurs (R ∈ s.possibleTypes ·) selections key name c below) ↔
      ∃ sub, Occurs (s.covers · R = true) expanded key name c sub := by
  constructor
  · rintro ⟨below, hocc⟩
    obtain ⟨sub, hocc, -⟩ := hopens.occurs_of hocc
    exact ⟨sub, (uniform_object ho _ _ _ _ _).2 hocc⟩
  · rintro ⟨sub, hocc⟩
    obtain ⟨below, hocc, -⟩ := hopens.occurs ((uniform_object ho _ _ _ _ _).1 hocc)
    exact ⟨below, hocc⟩

section collected

variable {o : ObjectDefinition} (ho : s.find? R = some (.object o)) (hopens : d.Opens selections expanded)
  (h : collect s R expanded = .ok fields)
include ho hopens h

/-- A key is collected, as unconditional unless conditional selections are included, if and only if field collection
finds it. -/
theorem mem_collected_iff (included : Bool) (key : String) :
    (∃ f ∈ fields, f.key = key ∧ (f.conditional = true → included = true)) ↔
      key ∈ (d.fieldsFor s R included selections).map (·.key) := by
  simp only [List.mem_map, Document.mem_fieldsFor]
  constructor
  · rintro ⟨f, hf, rfl, hcond⟩
    have hocc : ∃ c sub, (c = true → included = true) ∧ Occurs (s.covers · R = true) expanded f.key f.name c sub := by
      cases hflag : f.conditional with
      | true =>
        obtain ⟨c, sub, hocc⟩ := occurs_of_collected h hf
        exact ⟨c, sub, fun _ => hcond hflag, hocc⟩
      | false =>
        obtain ⟨sub, hocc⟩ := occurs_of_unconditional h hf hflag
        exact ⟨false, sub, by simp, hocc⟩
    obtain ⟨c, sub, hc, hocc⟩ := hocc
    obtain ⟨below, hocc⟩ := (occurs_covers_iff ho hopens).2 ⟨sub, hocc⟩
    exact ⟨⟨f.key, f.name, below⟩, ⟨c, hc, hocc⟩, rfl⟩
  · rintro ⟨k, ⟨c, hc, hocc⟩, rfl⟩
    obtain ⟨sub, hocc⟩ := (occurs_covers_iff ho hopens).1 ⟨_, hocc⟩
    obtain ⟨f, hf, hkey, -⟩ := exists_collected_of_occurs h hocc
    refine ⟨f, hf, hkey, fun hcond => hc ?_⟩
    have hall := (conditional_iff_of_collected h hf).1 hcond
    rw [hkey] at hall
    exact hall _ _ _ hocc

/-- Every occurrence of a collected key selects its schema field. -/
theorem name_of_occurs {f : CollectedField} (hf : f ∈ fields) {name : String} {c : Bool} {below : List Selection}
    (hocc : d.Occurs (R ∈ s.possibleTypes ·) selections f.key name c below) : name = f.name := by
  obtain ⟨sub, hocc⟩ := (occurs_covers_iff ho hopens).1 ⟨_, hocc⟩
  obtain ⟨scope, hmem⟩ := mem_fieldsIn_of_occurs hocc R false
  exact (merged_of_collect h).name_eq hf hmem rfl

end collected

/-- **The collected keys are those of GraphQL's field collection.** On an object type they are what it finds when every
conditional selection is kept, and the unconditional ones what it finds when none is. Each stands for the one schema
field that all its occurrences select; where they select two, collection fails. -/
theorem keys_of_fieldCollection (hd : d.Acyclic) {o : ObjectDefinition} (ho : s.find? R = some (.object o))
    (selections : List Selection) :
    (∀ fields, collect s R (d.expand selections) = .ok fields →
      (fields.map (·.key)).Nodup ∧
      (∀ key, key ∈ fields.map (·.key) ↔ key ∈ (d.fieldsFor s R true selections).map (·.key)) ∧
      (∀ key, (∃ f ∈ fields, f.key = key ∧ f.conditional = false) ↔
        key ∈ (d.fieldsFor s R false selections).map (·.key)) ∧
      ∀ f ∈ fields, ∀ name c below, d.Occurs (R ∈ s.possibleTypes ·) selections f.key name c below → name = f.name) ∧
    ∀ key name name' c c' below below', d.Occurs (R ∈ s.possibleTypes ·) selections key name c below →
      d.Occurs (R ∈ s.possibleTypes ·) selections key name' c' below' → name ≠ name' →
      ∃ e, collect s R (d.expand selections) = .error e := by
  have hopens : d.Opens selections (d.expand selections) := Document.expand_opens (hd.from selections)
  refine ⟨fun fields h => ⟨(merged_of_collect h).distinct, fun key => ?_, fun key => ?_,
    fun f hf name c below => name_of_occurs ho hopens h hf⟩, ?_⟩
  · simpa using mem_collected_iff ho hopens h true key
  · simpa using mem_collected_iff ho hopens h false key
  intro key name name' c c' below below' hocc hocc' hne
  cases h : collect s R (d.expand selections) with
  | error e => exact ⟨e, rfl⟩
  | ok fields =>
    obtain ⟨sub, hcovers⟩ := (occurs_covers_iff ho hopens).1 ⟨_, hocc⟩
    obtain ⟨f, hf, rfl, -⟩ := exists_collected_of_occurs h hcovers
    exact absurd ((name_of_occurs ho hopens h hf hocc).trans (name_of_occurs ho hopens h hf hocc').symm) hne

theorem bark_mem_fieldsFor :
    "bark" ∈ (Schema.barks.fieldsFor Schema.pets "Dog" true Schema.petSelections).map (·.key) ∧
      "bark" ∉ (Schema.barks.fieldsFor Schema.pets "Dog" false Schema.petSelections).map (·.key) := by
  have hdog : Schema.pets.find? "Dog" =
      some (.object ⟨"Dog", none, ["Named"], [⟨"name", .named "String", none⟩, ⟨"bark", .named "String", none⟩]⟩) := rfl
  have hcollect : collect Schema.pets "Dog" (Schema.barks.expand Schema.petSelections) =
      .ok [⟨"__typename", "__typename", "Dog", false, []⟩, ⟨"name", "name", "Named", true, []⟩,
        ⟨"bark", "bark", "Dog", true, []⟩] := by cbv
  obtain ⟨-, hincluded, hexcluded, -⟩ :=
    (keys_of_fieldCollection Schema.barks_acyclic hdog Schema.petSelections).1 _ hcollect
  rw [← hincluded, ← hexcluded]
  decide

end Expanded

end TypedQuery
