/-
The order of the properties of an object. Collection inserts the fields of
the selections one after the other, so the collected keys stand in the order
in which they are first met (`map_of_foldlM`). `Linearizes` says of a list of
fields that it is the order of the text, fragments after the fields beside
them; collection on an object meets just these (`Expands.linearizes`).
-/
import TypedQuery.Proofs.Execution
import TypedQuery.Proofs.Expansions
import TypedQuery.Proofs.FieldCollection

namespace TypedQuery

open Generator

/-! ## The order of the text -/

def Selection.ownField? : Selection → Option KeptField
  | field alias? name _ sub => some ⟨alias?.getD name, name, sub⟩
  | _ => none

/-- The fields among `selections` themselves. -/
def Selection.ownFields (selections : List Selection) : List KeptField := selections.filterMap ownField?

namespace Document

/-- `line` lists the fields in the fragments among `selections` that apply, fragment after fragment. -/
inductive LinearizesFragments (d : Document) (applies : String → Prop) : List Selection → List KeptField → Prop
  | nil : LinearizesFragments d applies [] []
  | field {alias? name c sub rest line} (hr : LinearizesFragments d applies rest line) :
    LinearizesFragments d applies (.field alias? name c sub :: rest) line
  | inline {condition? c inner rest line more} (ha : ∀ t ∈ condition?, applies t)
    (h : LinearizesFragments d applies inner line) (hr : LinearizesFragments d applies rest more) :
    LinearizesFragments d applies (.inline condition? c inner :: rest) (Selection.ownFields inner ++ line ++ more)
  | inlineOther {condition? c inner rest line} (hn : ¬ ∀ t ∈ condition?, applies t)
    (hr : LinearizesFragments d applies rest line) :
    LinearizesFragments d applies (.inline condition? c inner :: rest) line
  | spread {name c f rest line more} (hf : d.fragment? name = some f) (ha : applies f.condition)
    (h : LinearizesFragments d applies f.selections line) (hr : LinearizesFragments d applies rest more) :
    LinearizesFragments d applies (.spread name c :: rest) (Selection.ownFields f.selections ++ line ++ more)
  | spreadOther {name c f rest line} (hf : d.fragment? name = some f) (hn : ¬ applies f.condition)
    (hr : LinearizesFragments d applies rest line) :
    LinearizesFragments d applies (.spread name c :: rest) line

/-- `line` lists the fields among `selections`, then for each fragment among them that applies, in the order of the
text, what its own selections linearize to. -/
def Linearizes (d : Document) (applies : String → Prop) (selections : List Selection) (line : List KeptField) : Prop :=
  ∃ inner, d.LinearizesFragments applies selections inner ∧ line = Selection.ownFields selections ++ inner

section Linearizes

variable {d : Document} {applies : String → Prop} {selections : List Selection} {line line' : List KeptField}

theorem LinearizesFragments.unique (h : d.LinearizesFragments applies selections line)
    (h' : d.LinearizesFragments applies selections line') : line' = line := by
  induction h generalizing line' with
  | nil =>
    cases h'
    rfl
  | field _ ih =>
    cases h' with
    | field hr' => exact ih hr'
  | inline ha _ _ ih ihr =>
    cases h' with
    | inline _ h' hr' => rw [ih h', ihr hr']
    | inlineOther hn => exact absurd ha hn
  | inlineOther hn _ ihr =>
    cases h' with
    | inline ha => exact absurd ha hn
    | inlineOther _ hr' => exact ihr hr'
  | spread hf ha _ _ ih ihr =>
    cases h' with
    | spread hf' _ h' hr' =>
      obtain rfl := Option.some.inj (hf.symm.trans hf')
      rw [ih h', ihr hr']
    | spreadOther hf' hn =>
      obtain rfl := Option.some.inj (hf.symm.trans hf')
      exact absurd ha hn
  | spreadOther hf hn _ ihr =>
    cases h' with
    | spread hf' ha =>
      obtain rfl := Option.some.inj (hf.symm.trans hf')
      exact absurd ha hn
    | spreadOther _ _ hr' => exact ihr hr'

theorem Linearizes.unique (h : d.Linearizes applies selections line) (h' : d.Linearizes applies selections line') :
    line' = line := by
  obtain ⟨inner, hin, rfl⟩ := h
  obtain ⟨inner', hin', rfl⟩ := h'
  rw [hin.unique hin']

end Linearizes

end Document

/-! ## The order of collection -/

namespace CollectedField

/-- Fields that are inserted one after the other stand in the order in which their labels are first met, for any label
that tells the keys apart and that merging keeps. -/
theorem map_of_foldlM {β : Type} [BEq β] [LawfulBEq β] {label : CollectedField → β}
    (hkey : ∀ f g, label f = label g → f.key = g.key)
    (hlabel : ∀ f g, f.key = g.key → f.name = g.name → label f = label g)
    {site : String} {occurrences fields : List CollectedField}
    (h : occurrences.foldlM (fun fields f => f.insert site fields) [] = .ok fields) :
    fields.map label = (occurrences.map label).eraseDups := by
  induction occurrences using List.reverseRecOn generalizing fields with
  | nil =>
    cases h
    rfl
  | append_singleton occurrences new ih =>
    rw [List.foldlM_append, bind_eq_ok] at h
    obtain ⟨fields₁, h₁, h⟩ := h
    have hmem : label new ∈ occurrences.map label ↔ label new ∈ fields₁.map label := by
      rw [ih h₁, List.mem_eraseDups]
    rw [List.map_append, List.eraseDups_append, ← ih h₁]
    rcases insert_ok (by simpa using h) with ⟨hnew, rfl⟩ | ⟨pre, f, post, rfl, hk, hn, rfl⟩
    · have hout : label new ∉ occurrences.map label := by
        intro hin
        obtain ⟨f, hf, he⟩ := List.mem_map.1 (hmem.1 hin)
        exact hnew (List.mem_map.2 ⟨f, hf, hkey _ _ he⟩)
      simp [List.removeAll, hout, List.eraseDups_cons]
    · have he : label (f.merge new) = label f := hlabel _ _ rfl rfl
      have hin : label new ∈ occurrences.map label := hmem.2 (by simp [hlabel new f hk.symm hn.symm])
      simp [List.removeAll, hin, he]

end CollectedField

namespace Expanded

section order

variable {s : Schema} {site : String} {selections : List Expanded} {fields : List CollectedField}

theorem keys_of_collect (h : collect s site selections = .ok fields) :
    fields.map (·.key) = ((fieldsIn (s.covers · site) site false selections).map (·.key)).eraseDups :=
  CollectedField.map_of_foldlM (fun _ _ => id) (fun _ _ hk _ => hk) (collect_eq_foldlM h)

theorem selected_of_collect (h : collect s site selections = .ok fields) :
    fields.map (fun f => (f.key, f.name)) =
      ((fieldsIn (s.covers · site) site false selections).map fun f => (f.key, f.name)).eraseDups :=
  CollectedField.map_of_foldlM (fun _ _ he => (Prod.mk.inj he).1) (fun _ _ hk hn => Prod.ext hk hn)
    (collect_eq_foldlM h)

end order

end Expanded

namespace Expanded

/-- A fragment among the selections is collected from if its condition covers the site, and passed over if not. -/
theorem collectFragments_fragment {s : Schema} {site scope : String} {conditional c : Bool} {label : FragmentLabel}
    {condition? : Option String} {sub rest : List Expanded} {fields collected : List CollectedField}
    (h : collectFragments s site scope conditional (fragment label condition? c sub :: rest) fields = .ok collected) :
    (s.covers (condition?.getD scope) site = true → ∃ own fields',
      collectFragments s site (condition?.getD scope) (conditional || c) sub own = .ok fields') ∧
    ∃ fields', collectFragments s site scope conditional rest fields' = .ok collected := by
  simp only [collectFragments, bind_eq_ok] at h
  obtain ⟨_, -, h⟩ := h
  split at h
  next hcov =>
    obtain ⟨fields₂, hsub, hrest⟩ := bind_eq_ok.1 h
    simp only [collectInto, bind_eq_ok] at hsub
    obtain ⟨own, -, hin⟩ := hsub
    exact ⟨fun _ => ⟨own, fields₂, hin⟩, fields₂, hrest⟩
  next hcov => exact ⟨fun h' => absurd h' hcov, fields, h⟩

end Expanded

namespace Document

variable {d : Document} {s : Schema} {R : String} {o : ObjectDefinition} {selections : List Selection}
  {expanded : List Expanded}

theorem Expands.ownFields (h : d.Expands selections expanded) (scope : String) (conditional : Bool) :
    (Expanded.ownFields scope conditional expanded).map (fun f => (f.key, f.name)) =
      (Selection.ownFields selections).map fun k => (k.key, k.name) := by
  induction h with
  | nil => rfl
  | @field alias? name _ _ _ _ _ _ _ _ ihr => exact congrArg ((alias?.getD name, name) :: ·) ihr
  | inline _ _ _ ihr | spread _ _ _ _ ihr | undefined _ _ ihr | cyclic _ _ ihr => exact ihr

/-- On an object, a fragment within a scope that covers it is collected from just where it applies. -/
theorem covers_getD_iff (ho : s.find? R = some (.object o)) {scope : String} (hs : s.covers scope R = true)
    (condition? : Option String) :
    s.covers (condition?.getD scope) R = true ↔ ∀ t ∈ condition?, R ∈ s.possibleTypes t := by
  cases condition? with
  | none => simpa using hs
  | some t => simp [Schema.covers_object ho]

theorem all_covers_iff (ho : s.find? R = some (.object o)) (condition? : Option String) :
    condition?.all (s.covers · R) = true ↔ ∀ t ∈ condition?, R ∈ s.possibleTypes t := by
  cases condition? <;> simp [Schema.covers_object ho]

/-- What collection meets in the fragments is their linearization. -/
theorem Expands.linearizes (ho : s.find? R = some (.object o)) (h : d.Expands selections expanded) {scope : String}
    {conditional : Bool} {fields collected : List CollectedField} (hs : s.covers scope R = true)
    (hc : Expanded.collectFragments s R scope conditional expanded fields = .ok collected) :
    ∃ line, d.LinearizesFragments (R ∈ s.possibleTypes ·) selections line ∧
      (Expanded.fragmentFields (s.covers · R) scope conditional expanded).map (fun f => (f.key, f.name)) =
        line.map fun k => (k.key, k.name) := by
  induction h generalizing scope conditional fields collected with
  | nil => exact ⟨[], .nil, by simp [Expanded.fragmentFields]⟩
  | field _ _ _ ihr =>
    rw [Expanded.collectFragments] at hc
    obtain ⟨line, hline, he⟩ := ihr hs hc
    exact ⟨line, .field hline, by rw [Expanded.fragmentFields, he]⟩
  | @inline condition? c sub expanded rest more hsub _ ih ihr =>
    obtain ⟨hin, fields₁, hrest⟩ := Expanded.collectFragments_fragment hc
    obtain ⟨line, hline, he⟩ := ihr hs hrest
    have hiff := covers_getD_iff ho hs condition?
    by_cases ha : ∀ t ∈ condition?, R ∈ s.possibleTypes t
    · obtain ⟨own, fields₂, hin⟩ := hin (hiff.2 ha)
      obtain ⟨inner, hinner, hei⟩ := ih (hiff.2 ha) hin
      refine ⟨_, .inline ha hinner hline, ?_⟩
      simp [Expanded.fragmentFields, (all_covers_iff ho condition?).2 ha, hsub.ownFields, hei, he]
    · refine ⟨line, .inlineOther ha hline, ?_⟩
      simp [Expanded.fragmentFields, mt (all_covers_iff ho condition?).1 ha, he]
  | @spread name c f expanded rest more hf hsub _ ih ihr =>
    obtain ⟨hin, fields₁, hrest⟩ := Expanded.collectFragments_fragment hc
    obtain ⟨line, hline, he⟩ := ihr hs hrest
    have hiff : s.covers f.condition R = true ↔ R ∈ s.possibleTypes f.condition := Schema.covers_object ho
    by_cases ha : R ∈ s.possibleTypes f.condition
    · obtain ⟨own, fields₂, hin⟩ := hin (hiff.2 ha)
      obtain ⟨inner, hinner, hei⟩ := ih (hiff.2 ha) hin
      refine ⟨_, .spread hf ha hinner hline, ?_⟩
      simp [Expanded.fragmentFields, hiff.2 ha, hsub.ownFields, hei, he]
    · refine ⟨line, .spreadOther hf ha hline, ?_⟩
      simp [Expanded.fragmentFields, mt hiff.1 ha, he]
  | undefined => simp [Expanded.collectFragments] at hc
  | @cyclic name c f rest more hf _ ihr =>
    simp only [Expanded.collectFragments, bind_eq_ok] at hc
    obtain ⟨_, -, hc⟩ := hc
    split at hc
    next => cases hc
    next hcov =>
      obtain ⟨line, hline, he⟩ := ihr hs hc
      have hn : R ∉ s.possibleTypes f.condition := mt (Schema.covers_object ho).2 hcov
      exact ⟨line, .spreadOther hf hn hline, by rw [Expanded.fragmentFields, he]⟩

/-- What collection on an object meets is the linearization of the selections. -/
theorem Expands.linearizes_collect (ho : s.find? R = some (.object o)) (h : d.Expands selections expanded)
    {fields : List CollectedField} (hc : Expanded.collect s R expanded = .ok fields) :
    ∃ line, d.Linearizes (R ∈ s.possibleTypes ·) selections line ∧
      (Expanded.fieldsIn (s.covers · R) R false expanded).map (fun f => (f.key, f.name)) =
        line.map fun k => (k.key, k.name) := by
  simp only [Expanded.collect, Expanded.collectInto, bind_eq_ok] at hc
  obtain ⟨own, -, hc⟩ := hc
  obtain ⟨inner, hinner, he⟩ := h.linearizes ho (s.covers_refl R) hc
  exact ⟨_, ⟨inner, hinner, rfl⟩, by rw [Expanded.fieldsIn, List.map_append, List.map_append, h.ownFields, he]⟩

end Document

namespace Schema

/-- The names of properties are the keys collected. -/
theorem names_eq_keys {s : Schema} {fields : List FieldDefinition}
    {F : FieldDefinition → List Expanded → PropertyType → Prop} {collected : List CollectedField}
    {qs : List Property} (h : List.Forall₂ (s.IsProperty fields F) collected qs) :
    qs.map (·.name) = collected.map (·.key) := by
  simpa [Function.comp_def] using congrArg (List.map Prod.fst) (properties_eq_collected h)

/-- **The properties of an object stand in the order of the text, fragments after the fields beside them.** Whatever
is selected on an object, the properties of its shape are what collection first meets of each key; and where this is
the expansion of a document's selections, their names are the keys of the one linearization of these, each once. -/
theorem properties_in_order {s : Schema} {o : ObjectDefinition} (ho : s.find? o.name = some (.object o)) {levels : Nat}
    {expanded : List Expanded} {name? : Option String} {n : String} {p p' : Progress}
    (h : Runs (s.objectShape (s.fieldType levels) o expanded name?) p n p') :
    ∃ shape, p'.registry.lookup? n = some shape ∧ (shape.properties.map (·.name)).Nodup ∧
      shape.properties.map (fun q => (q.name, q.fieldName)) =
        ((Expanded.fieldsIn (s.covers · o.name) o.name false expanded).map fun f => (f.key, f.name)).eraseDups ∧
      ∀ (d : Document) (selections : List Selection), d.Expands selections expanded →
        ∃ line, d.Linearizes (o.name ∈ s.possibleTypes ·) selections line ∧
          (∀ line', d.Linearizes (o.name ∈ s.possibleTypes ·) selections line' → line' = line) ∧
          shape.properties.map (·.name) = (line.map (·.key)).eraseDups := by
  obtain ⟨-, collected, qs, p₁, hc, -, -, hall, hreg⟩ :=
    objectShape_runs (fun _ _ _ _ _ _ => id) (establishes_of_grows (fieldType_grows levels)) trivial h
  refine ⟨_, (register_runs hreg).1.held, ?_, ?_, fun d selections hexp => ?_⟩
  · exact names_eq_keys hall ▸ (Expanded.merged_of_collect hc).distinct
  · exact (properties_eq_collected hall).trans (Expanded.selected_of_collect hc)
  · obtain ⟨line, hline, he⟩ := hexp.linearizes_collect ho hc
    have hkeys : (Expanded.fieldsIn (s.covers · o.name) o.name false expanded).map (·.key) = line.map (·.key) := by
      simpa [Function.comp_def] using congrArg (List.map Prod.fst) he
    refine ⟨line, hline, fun line' => hline.unique, ?_⟩
    rw [← hkeys, ← Expanded.keys_of_collect hc]
    exact names_eq_keys hall

/-- The fragment on dogs before the name, and the name again within the interface. -/
def dogSelections : List Selection :=
  [.spread "Barks" false, .field none "name" false [],
   .inline (some "Named") true [.field (some "called") "name" false []]]

theorem dog_properties_in_order :
    ∃ p', Runs (pets.objectShape (pets.fieldType 1)
        ⟨"Dog", none, ["Named"], [⟨"name", .named "String", none⟩, ⟨"bark", .named "String", none⟩]⟩
        (barks.expand dogSelections) none) .start "Dog" p' ∧
      ∃ shape line, p'.registry.lookup? "Dog" = some shape ∧
        barks.Linearizes ("Dog" ∈ pets.possibleTypes ·) dogSelections line ∧
        shape.properties.map (·.name) = (line.map (·.key)).eraseDups := by
  have hrun : Runs (pets.objectShape (pets.fieldType 1)
      ⟨"Dog", none, ["Named"], [⟨"name", .named "String", none⟩, ⟨"bark", .named "String", none⟩]⟩
      (barks.expand dogSelections) none) .start "Dog" _ := runs_of_outcome (by cbv)
  obtain ⟨shape, hl, -, -, hall⟩ := properties_in_order rfl hrun
  obtain ⟨line, hline, -, hnames⟩ := hall barks dogSelections (Document.expand_expands barks dogSelections)
  exact ⟨_, hrun, shape, line, hl, hline, hnames⟩

end Schema

end TypedQuery
