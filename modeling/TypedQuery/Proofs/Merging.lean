/-
Runs of the document against the expanded selections that shapes are made
from. `Serves` says that what a run keeps for a run-time type fits expanded
selections: nothing else is kept, and all that is unconditional. It holds of
selections and their expansion (`feeds_of_opens`), and where the fields of a
key are merged it holds again of what is selected below them
(`feeds_of_collected`): this is where a field that the server may leave out
must not become unconditional by merging.
-/
import TypedQuery.Proofs.Execution
import TypedQuery.Proofs.FieldCollection

namespace TypedQuery

namespace Document

/-- A run for `R` has kept only fields of `expanded`, and every unconditional one. -/
structure Serves (d : Document) (s : Schema) (R : String) (kept : List KeptField) (expanded : List Expanded) :
    Prop where
  found : ∀ k ∈ kept, ∃ c sub, Expanded.Occurs (R ∈ s.possibleTypes ·) expanded k.key k.name c sub ∧
    d.Opens k.selections sub
  keeps : ∀ key name sub, Expanded.Occurs (R ∈ s.possibleTypes ·) expanded key name false sub →
    ∃ k ∈ kept, k.key = key ∧ k.name = name ∧ d.Opens k.selections sub

/-- Below each field that `expanded` selects on `R` stand complete selections, opened. -/
def CompleteOn (d : Document) (s : Schema) (R : String) (expanded : List Expanded) : Prop :=
  ∀ key name c sub, Expanded.Occurs (R ∈ s.possibleTypes ·) expanded key name c sub →
    ∀ f, s.fieldOn? R name = some f → ∃ below, d.Opens below sub ∧
      (∀ t, s.find? f.type.baseName = some t → t.isComposite = true → below ≠ []) ∧
      Selection.CompleteAll s below f.type.baseName

/-- For each run-time type of `type`, runs of `selections` fit `expanded`. -/
structure Feeds (d : Document) (s : Schema) (type : String) (selections : List Selection)
    (expanded : List Expanded) : Prop where
  serves : ∀ R ∈ s.possibleTypes type, ∀ kept, d.Collects s R selections kept → d.Serves s R kept expanded
  complete : ∀ R ∈ s.possibleTypes type, d.CompleteOn s R expanded

section Serves

variable {d : Document} {s : Schema} {R : String} {kept : List KeptField} {expanded : List Expanded}

/-- Only what occurs for `R` matters. -/
theorem Serves.congr (h : d.Serves s R kept expanded) {expanded' : List Expanded}
    (hsame : Expanded.SameFor s R expanded' expanded) : d.Serves s R kept expanded' := by
  refine ⟨fun k hk => ?_, fun key name sub ho => h.keeps key name sub ((hsame _ _ _ _).1 ho)⟩
  obtain ⟨c, sub, ho, hop⟩ := h.found k hk
  exact ⟨c, sub, (hsame _ _ _ _).2 ho, hop⟩

theorem CompleteOn.congr (h : d.CompleteOn s R expanded) {expanded' : List Expanded}
    (hsame : Expanded.SameFor s R expanded' expanded) : d.CompleteOn s R expanded' :=
  fun key name c sub ho => h key name c sub ((hsame _ _ _ _).1 ho)

theorem Opens.serves {selections : List Selection} (h : d.Opens selections expanded)
    (hk : d.Collects s R selections kept) : d.Serves s R kept expanded := by
  constructor
  · intro k hmem
    obtain ⟨c, ho⟩ := hk.occurs k hmem
    obtain ⟨sub, ho, hop⟩ := h.occurs_of ho
    exact ⟨c, sub, ho, hop⟩
  · intro key name sub ho
    obtain ⟨below, ho, hop⟩ := h.occurs ho
    exact ⟨_, hk.keeps ho, rfl, rfl, hop⟩

theorem Opens.completeOn (hd : d.Complete s) {type : String} {selections : List Selection}
    (h : d.Opens selections expanded) (hc : Selection.CompleteAll s selections type)
    (hR : R ∈ s.possibleTypes type) : d.CompleteOn s R expanded := by
  intro key name c sub ho f hf
  obtain ⟨below, ho, hop⟩ := h.occurs ho
  exact ⟨below, hop, hd.occurs ho hc hR hf⟩

theorem feeds_of_opens (hd : d.Complete s) {type : String} {selections : List Selection}
    (h : d.Opens selections expanded) (hc : Selection.CompleteAll s selections type) :
    d.Feeds s type selections expanded :=
  ⟨fun _ _ _ hk => h.serves hk, fun _ hR => h.completeOn hd hc hR⟩

theorem mem_below {key : String} {selections : List Selection} :
    selections ∈ (kept.filter (·.key = key)).map (·.selections) ↔
      ∃ k ∈ kept, k.key = key ∧ k.selections = selections := by
  simp only [List.mem_map, List.mem_filter, decide_eq_true_eq, and_assoc]

/-! ## Below a collected field -/

section Collected

variable {site : String} {fields : List CollectedField}
  (hc : Expanded.collect s site expanded = .ok fields)
  (hu : Expanded.Uniform s site R expanded)
  {f : CollectedField} (hf : f ∈ fields)

include hu in
/-- An occurrence that field collection meets is one for `R`. -/
theorem occurs_of_mem_fieldsIn {g : CollectedField}
    (hg : g ∈ Expanded.fieldsIn (s.covers · site) site false expanded) :
    Expanded.Occurs (R ∈ s.possibleTypes ·) expanded g.key g.name g.conditional g.selections := by
  obtain ⟨c, ho, hcond⟩ := Expanded.occurs_of_mem_fieldsIn hg
  rw [Bool.false_or] at hcond
  rw [hcond]
  exact (hu _ _ _ _).1 ho

include hu in
theorem mem_fieldsIn_of_occurs {key name : String} {c : Bool} {sub : List Expanded}
    (ho : Expanded.Occurs (R ∈ s.possibleTypes ·) expanded key name c sub) :
    ∃ scope, ⟨key, name, scope, c, sub⟩ ∈ Expanded.fieldsIn (s.covers · site) site false expanded := by
  simpa using Expanded.mem_fieldsIn_of_occurs ((hu _ _ _ _).2 ho) site false

include hc hu hf in
/-- The selections below each occurrence of a collected key are complete. -/
theorem CompleteOn.below (h : d.CompleteOn s R expanded) {g : CollectedField}
    (hg : g ∈ Expanded.fieldsIn (s.covers · site) site false expanded) (hk : g.key = f.key)
    {declared : FieldDefinition} (hdecl : s.fieldOn? R f.name = some declared) :
    ∃ below, d.Opens below g.selections ∧
      (∀ t, s.find? declared.type.baseName = some t → t.isComposite = true → below ≠ []) ∧
      Selection.CompleteAll s below declared.type.baseName := by
  have hname : g.name = f.name := (Expanded.merged_of_collect hc).name_eq hf hg hk
  exact h _ _ _ _ (occurs_of_mem_fieldsIn hu hg) declared (hname ▸ hdecl)

include hc hu hf in
/-- What a run selects below a key fits the merged selections of its collected field. -/
theorem feeds_of_collected (hd : d.Complete s) (hs : d.Serves s R kept expanded)
    (hcomplete : d.CompleteOn s R expanded) (hkey : ∃ k ∈ kept, k.key = f.key) {declared : FieldDefinition}
    (hdecl : s.fieldOn? R f.name = some declared) :
    d.Feeds s declared.type.baseName (KeptField.below kept f.key) f.selections := by
  have hmerged := Expanded.merged_of_collect hc
  constructor
  · intro R' hR' kept' hkept'
    constructor
    · intro k' hk'
      obtain ⟨c', ho'⟩ := hkept'.occurs k' hk'
      obtain ⟨below, hbelow, ho'⟩ := occurs_flatten.1 ho'
      obtain ⟨k, hk, hkk, rfl⟩ := mem_below.1 hbelow
      obtain ⟨c, sub, ho, hop⟩ := hs.found k hk
      obtain ⟨sub', ho', hop'⟩ := hop.occurs_of ho'
      obtain ⟨scope, hg⟩ := mem_fieldsIn_of_occurs hu ho
      obtain ⟨c'', ho''⟩ := (hmerged.occurs_iff hf).2 ⟨_, hg, hkk, c', ho'⟩
      exact ⟨c'', sub', ho'', hop'⟩
    · intro key' name' sub' ho'
      obtain ⟨t, ht, hcomp⟩ := Schema.composite_of_mem_possibleTypes hR'
      have hsub : ∀ g ∈ Expanded.fieldsIn (s.covers · site) site false expanded, g.key = f.key →
          g.selections ≠ [] := by
        intro g hg hk
        obtain ⟨below, hop, hne, -⟩ := CompleteOn.below hc hu hf hcomplete hg hk hdecl
        exact mt hop.eq_nil_iff.1 (hne t ht hcomp)
      obtain ⟨g, hg, hgk, hog, hwhy⟩ := hmerged.unconditional hf hsub ho'
      -- either `g` must be kept, or it is all there is under its key and some field of that key is kept
      have hkept : ∃ k ∈ kept, k.key = f.key ∧ d.Opens k.selections g.selections := by
        rcases hwhy with hcond | honly
        · have ho := occurs_of_mem_fieldsIn hu hg
          rw [hcond] at ho
          obtain ⟨k, hk, hkk, -, hop⟩ := hs.keeps _ _ _ ho
          exact ⟨k, hk, hkk.trans hgk, hop⟩
        · obtain ⟨k, hk, hkk⟩ := hkey
          obtain ⟨c, sub, ho, hop⟩ := hs.found k hk
          obtain ⟨scope, hmem⟩ := mem_fieldsIn_of_occurs hu ho
          obtain rfl := honly _ hmem hkk
          exact ⟨k, hk, hkk, hop⟩
      obtain ⟨k, hk, hkk, hop⟩ := hkept
      obtain ⟨below', ho', hop'⟩ := hop.occurs hog
      have hbelow : d.Occurs (R' ∈ s.possibleTypes ·) (KeptField.below kept f.key) key' name' false below' :=
        occurs_flatten.2 ⟨_, mem_below.2 ⟨k, hk, hkk, rfl⟩, ho'⟩
      exact ⟨_, hkept'.keeps hbelow, rfl, rfl, hop'⟩
  · intro R' hR' key' name' c' sub' ho' f' hf'
    obtain ⟨g, hg, hgk, c, hog⟩ := (hmerged.occurs_iff hf).1 ⟨c', ho'⟩
    obtain ⟨below, hop, -, hall⟩ := CompleteOn.below hc hu hf hcomplete hg hgk hdecl
    obtain ⟨below', ho, hop'⟩ := hop.occurs hog
    exact ⟨below', hop', hd.occurs ho hall hR' hf'⟩

end Collected

end Serves

end Document

end TypedQuery
