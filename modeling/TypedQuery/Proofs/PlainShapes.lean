/-
Where the names in a generation come from. The fields that a shape has are
collected from selections that were merged, marked and split on the way, but
no new response key comes up there (`Sites.keys`), nor when fragments are
opened. So from plain names in a schema and a document come plain names
throughout the generation (`generate_plainNames`).
-/
import TypedQuery.Proofs.Expansions
import TypedQuery.Proofs.ItemNames
import TypedQuery.Proofs.ReadNames
import TypedQuery.Proofs.Rollback
import TypedQuery.Proofs.Sites

namespace TypedQuery

open Generator

/-! ## Response keys -/

namespace Expanded

mutual

/-- The response keys of the fields in a selection at any depth. -/
def keys : Expanded → List String
  | field key _ _ sub => key :: keysOf sub
  | fragment _ _ _ sub => keysOf sub
  | undefined _ => []
  | cyclic _ _ => []

/-- The response keys of the fields in selections at any depth. -/
def keysOf : List Expanded → List String
  | [] => []
  | e :: rest => e.keys ++ keysOf rest

end

section keys

variable {s : Schema} {site : String} {selections more common : List Expanded} {e : Expanded} {ks : List String}
  {branches : Branches}

theorem keysOf_subset_iff : keysOf selections ⊆ ks ↔ ∀ e ∈ selections, e.keys ⊆ ks := by
  induction selections with
  | nil => simp [keysOf]
  | cons e rest ih => rw [keysOf, List.append_subset, ih, List.forall_mem_cons]

theorem keysOf_append_subset : keysOf (selections ++ more) ⊆ ks ↔ keysOf selections ⊆ ks ∧ keysOf more ⊆ ks := by
  simp only [keysOf_subset_iff, List.forall_mem_append]

theorem keys_subset_of_mem (h : e ∈ selections) : e.keys ⊆ keysOf selections :=
  keysOf_subset_iff.1 (List.Subset.refl _) e h

/-- A mark around selections adds no key. -/
theorem keysOf_marked (conditional : Bool) :
    keysOf (CollectedField.marked conditional selections) = keysOf selections := by
  unfold CollectedField.marked markConditional
  split
  · split
    · rfl
    · simp only [keysOf, keys, List.append_nil]
  · rfl

theorem Occurs.keys {applies : String → Prop} {sub : List Expanded} {key name : String} {c : Bool}
    (h : Occurs applies selections key name c sub) : key :: keysOf sub ⊆ keysOf selections := by
  induction h with
  | field h => exact keys_subset_of_mem h
  | fragment h _ _ ih => exact List.Subset.trans ih (keys_subset_of_mem h)

/-- The key of a collected field, and those below it, are keys of the selections. -/
theorem collect_keys {fields : List CollectedField} (h : collect s site selections = .ok fields) {f : CollectedField}
    (hf : f ∈ fields) : f.key ∈ keysOf selections ∧ keysOf f.selections ⊆ keysOf selections := by
  have hmerged := merged_of_collect h
  have hoccurs : ∀ {o : CollectedField}, o ∈ fieldsIn (s.covers · site) site false selections →
      o.key :: keysOf o.selections ⊆ keysOf selections := by
    intro o ho
    obtain ⟨c, hocc, -⟩ := occurs_of_mem_fieldsIn ho
    exact hocc.keys
  constructor
  · obtain ⟨o, ho, hkey, -⟩ := hmerged.first hf
    exact hkey ▸ hoccurs ho List.mem_cons_self
  · refine keysOf_subset_iff.2 ((hmerged.forall_selections_iff (fun _ => ?_) hf).2 fun o ho _ => ?_)
    · rw [← keysOf_subset_iff, ← keysOf_subset_iff, keysOf_marked]
    · exact keysOf_subset_iff.1 (List.Subset.trans (List.subset_cons_self _ _) (hoccurs ho))

/-- Splitting adds no key, neither to the common part nor to a branch. -/
theorem split_keys (h : split s site selections = .ok (common, branches)) :
    keysOf common ⊆ keysOf selections ∧ ∀ t, keysOf (branches.get t) ⊆ keysOf selections := by
  simp only [keysOf_subset_iff]
  refine (splits_of_split h).forall_mem ?_ ?_ ?_ (fun e => keys_subset_of_mem) (by simp [Branches.get])
  · intro label condition? c sub hsub
    exact keysOf_subset_iff.1 hsub
  · intro label condition? c sub label' condition?' c' sub' _ hsub
    exact keysOf_subset_iff.2 hsub
  · intro name condition c _
    simp [keys, keysOf]

theorem keysOf_get_foldl_remove {types : List String} (hb : ∀ t, keysOf (branches.get t) ⊆ ks) (t : String) :
    keysOf ((types.foldl Branches.remove branches).get t) ⊆ ks := by
  induction types generalizing branches with
  | nil => exact hb t
  | cons u types ih =>
    refine ih fun t' => ?_
    rw [Branches.get_remove]
    split
    · simp [keysOf]
    · exact hb t'

end keys

end Expanded

namespace Document

/-- Opening fragments adds no key that is not written. -/
theorem Expands.keys {d : Document} {selections : List Selection} {expanded : List Expanded} {ks : List String}
    (h : d.Expands selections expanded) (hselections : Selection.keysOf selections ⊆ ks)
    (hfragments : ∀ f ∈ d.fragments, Selection.keysOf f.selections ⊆ ks) : Expanded.keysOf expanded ⊆ ks := by
  induction h with
  | nil => exact List.nil_subset _
  | field _ _ ih ihr =>
    rw [Selection.keysOf, List.append_subset, Selection.keys, List.cons_subset] at hselections
    rw [Expanded.keysOf, List.append_subset, Expanded.keys, List.cons_subset]
    exact ⟨⟨hselections.1.1, ih hselections.1.2⟩, ihr hselections.2⟩
  | inline _ _ ih ihr =>
    rw [Selection.keysOf, List.append_subset, Selection.keys] at hselections
    rw [Expanded.keysOf, List.append_subset, Expanded.keys]
    exact ⟨ih hselections.1, ihr hselections.2⟩
  | spread hf _ _ ih ihr =>
    rw [Selection.keysOf, List.append_subset] at hselections
    rw [Expanded.keysOf, List.append_subset, Expanded.keys]
    exact ⟨ih (hfragments _ (List.mem_of_find?_eq_some hf)), ihr hselections.2⟩
  | undefined _ _ ihr | cyclic _ _ ihr =>
    rw [Selection.keysOf, List.append_subset] at hselections
    rw [Expanded.keysOf, List.append_subset]
    exact ⟨List.nil_subset _, ihr hselections.2⟩

end Document

namespace Schema

variable {s : Schema} {d : Document} {op : Operation} {c : CallSite}

theorem CallSite.Collects.keys {collected : List CollectedField} (h : c.Collects s collected) {f : CollectedField}
    (hf : f ∈ collected) : f.key ∈ Expanded.keysOf c.selections ∧
      Expanded.keysOf f.selections ⊆ Expanded.keysOf c.selections := by
  obtain ⟨own, hown, hcollect⟩ := h
  obtain ⟨hkey, hbelow⟩ := Expanded.collect_keys hcollect hf
  have hsub : Expanded.keysOf own ⊆ Expanded.keysOf c.selections := by
    cases hown with
    | object => exact List.Subset.refl _
    | common _ hsplit => exact (Expanded.split_keys hsplit).1
  exact ⟨hsub hkey, List.Subset.trans hbelow hsub⟩

/-- **No new keys come up** on the way down to a site. -/
theorem Sites.keys (h : s.Sites d op c) : Expanded.keysOf c.selections ⊆ Expanded.keysOf (d.expand op.selections) := by
  induction h with
  | data => exact List.Subset.refl _
  | field _ hcollects hf _ _ _ ih => exact List.Subset.trans (CallSite.Collects.keys hcollects hf).2 ih
  | variant _ _ hsplit _ _ _ _ ih =>
    obtain ⟨hcommon, hbranches⟩ := Expanded.split_keys hsplit
    exact List.Subset.trans (Expanded.keysOf_append_subset.2 ⟨hcommon, Expanded.keysOf_get_foldl_remove hbranches _⟩) ih

end Schema

/-! ## Plain names -/

structure Property.PlainNames (q : Property) : Prop where
  name : IsPlain q.name
  base : ∀ n, q.type.base = .generated n → IsPlain n

/-- All names in a shape are plain: its own, those of its values, variants and properties, and of the shapes that it
refers to. -/
structure Shape.PlainNames (t : Shape) : Prop where
  name : IsPlain t.name
  values : ∀ values, t.kind = .enumeration values → ∀ v ∈ values, IsPlain v.name
  variants : ∀ v ∈ t.variants, IsPlain v.typename ∧ IsPlain v.shapeName
  properties : ∀ q ∈ t.properties, q.PlainNames

structure Generation.PlainNames (g : Generation) : Prop where
  shapes : ∀ t ∈ g.shapes, t.PlainNames
  parameters : ∀ op ∈ g.operations, ∀ q ∈ op.parameters, q.PlainNames

namespace Schema

variable {s : Schema} {d : Document} {op : Operation} {c : CallSite} {g : Generation}

theorem PlainNames.find? (hs : s.PlainNames) {name : String} {t : TypeDefinition} (h : s.find? name = some t) :
    t.PlainNames := hs.types t (mem_of_find? h)

/-- A successful run is a row of calls that all succeed. -/
theorem calls_of_runs {ops : List Operation} {shapes : List OperationShape} {p p' : Progress}
    (h : Runs (ops.mapM (s.generateOperation d)) p shapes p') : s.calls d ops p = (shapes.map .ok, p') := by
  induction ops generalizing p shapes with
  | nil =>
    rw [List.mapM_nil] at h
    obtain ⟨rfl, rfl⟩ := runs_pure.1 h
    rfl
  | cons op ops ih =>
    rw [List.mapM_cons] at h
    obtain ⟨shape, p₁, hop, h⟩ := runs_bind.1 h
    obtain ⟨more, p₂, hops, h⟩ := runs_bind.1 h
    obtain ⟨rfl, rfl⟩ := runs_pure.1 h
    rw [calls_cons_succeeded hop, ih hops]
    rfl

/-- The shapes of a generation refer to each other, and so do the parameters of its operations to them. -/
theorem generate_sound (h : s.generate d = .ok g) : (⟨g.shapes⟩ : Registry).Sound s [] ∧
    List.Forall₂ (fun op shape => List.Forall₂ (s.IsVariableProperty ⟨g.shapes⟩) op.parameters shape.parameters)
      d.operations g.operations := by
  obtain ⟨p, hrun, hshapes⟩ := generate_eq_ok h
  obtain ⟨⟨hsound, hexpanding⟩, -, hparameters⟩ := runs_mapM
    (I := fun p => s.KeptSound p ∧ p.expanding = [])
    (Q := fun r (op : Operation) (shape : OperationShape) =>
      List.Forall₂ (s.IsVariableProperty r) op.parameters shape.parameters)
    (fun hext hq => hq.imp fun _ _ hq => ⟨hq.1, hq.2.extends hext fun _ => .inr⟩)
    (fun op _ p shape p' hI hr => by
      have hoperation := generateOperation_runs.1 hr
      obtain ⟨hI', hexp, -, hall⟩ := operationShapes_sound hI.1 hI.2 hoperation
      exact ⟨⟨hI', hexp⟩, (operationShapes_grows d op).runs hoperation, hall⟩)
    s.keptSound_start hrun
  have hregistry : (⟨g.shapes⟩ : Registry) = p.registry := congrArg Registry.mk hshapes
  rw [hregistry]
  exact ⟨hexpanding ▸ hsound, hparameters⟩

/-- The shapes of responses in a generation are made at sites. -/
theorem generate_planted (h : s.generate d = .ok g) : ∀ t ∈ g.shapes, t.kind.isOutput = true →
    ∃ op ∈ d.operations, ∃ c, s.Sites d op c ∧ c.Made s t := by
  obtain ⟨p, hrun, hshapes⟩ := generate_eq_ok h
  have hplanted := calls_planted s d d.operations
  rw [calls_of_runs hrun] at hplanted
  rw [hshapes]
  exact hplanted

/-- What the items of an operation are named after: its own name, or else that of its root type. -/
def operationName (s : Schema) (op : Operation) : String := op.name?.getD (s.rootType op.kind)

section plain

variable (hs : s.PlainNames) (hd : d.PlainNames)

include hs hd

theorem isPlain_operationName (hop : op ∈ d.operations) : IsPlain (s.operationName op) := by
  have hname := (hd.operations op hop).name
  unfold operationName
  cases hn : op.name? with
  | none => exact hs.roots op.kind
  | some n => exact hname n hn

theorem isPlain_of_mem_sourceNames {n : String} (h : n ∈ s.sourceNames d) : IsPlain n := by
  rcases List.mem_append.1 h with h | h
  · obtain ⟨t, ht, rfl⟩ := List.mem_map.1 h
    exact (hs.types t (List.mem_filter.1 ht).1).name
  · obtain ⟨op, hop, rfl⟩ := List.mem_map.1 h
    have hcamel := Text.isAlphanum_of_mem_upperCamel (isPlain_operationName hs hd hop)
    refine isPlain_append.2 ⟨isPlain_of_isAlphanum ?_, isPlain_of_isName (by decide)⟩
    rwa [String.toList_ofList]

/-- The names of shapes are plain. -/
theorem isPlain_of_mem_names (h : s.generate d = .ok g) : ∀ t ∈ g.shapes, IsPlain t.name := by
  intro t ht
  obtain ⟨n, digits, hn, hname⟩ := ((generate_namedApart h).1 t ht).source
  rw [hname]
  exact isPlain_append.2 ⟨isPlain_of_mem_sourceNames hs hd hn.mem, isPlain_of_digits hn.numeral⟩

omit hs in
/-- The keys that are collected at a site are written in the document. -/
theorem Sites.isPlain_key (hop : op ∈ d.operations) (h : s.Sites d op c) {collected : List CollectedField}
    (hcollects : c.Collects s collected) {f : CollectedField} (hf : f ∈ collected) : IsPlain f.key := by
  have hexpanded : Expanded.keysOf (d.expand op.selections) ⊆
      Selection.keysOf op.selections ++ d.fragments.flatMap fun f => Selection.keysOf f.selections := by
    refine (d.expand_expands op.selections).keys (List.subset_append_left _ _) fun f hf => ?_
    exact fun k hk => List.mem_append_right _ (List.mem_flatMap.2 ⟨f, hf, hk⟩)
  rcases List.mem_append.1 (hexpanded (h.keys (CallSite.Collects.keys hcollects hf).1)) with hkey | hkey
  · exact (hd.operations op hop).keys _ hkey
  · obtain ⟨fragment, hfragment, hkey⟩ := List.mem_flatMap.1 hkey
    exact hd.fragments fragment hfragment _ hkey

theorem isPlain_of_output (h : s.generate d = .ok g) {t : Shape} (ht : t ∈ g.shapes) (hout : t.kind.isOutput = true) :
    IsPlain t.schemaType ∧ ∀ q ∈ t.properties, IsPlain q.name := by
  obtain ⟨op, hop, c, hsite, htype, collected, hcollects, hall⟩ := generate_planted h t ht hout
  refine ⟨htype ▸ (hs.find? hsite.type.1).name, fun q hq => ?_⟩
  obtain ⟨f, hf, _, _, -, -, rfl⟩ := exists_of_forall₂_right hall hq
  exact hsite.isPlain_key hd hop hcollects hf

omit hd in
theorem isPlain_of_input {r : Registry} {t : Shape} (h : s.InputHolds r [] t) :
    (∀ values, t.kind = .enumeration values → ∀ v ∈ values, IsPlain v.name) ∧ ∀ q ∈ t.properties, IsPlain q.name := by
  cases h with
  | enumeration h =>
    refine ⟨fun values hkind => ?_, List.forall_mem_nil _⟩
    cases hkind
    exact (hs.find? h).values _ rfl
  | input h hall =>
    refine ⟨fun _ hkind => (nomatch hkind), fun q hq => ?_⟩
    obtain ⟨f, hf, _, rfl, -⟩ := exists_of_forall₂_right hall hq
    exact (hs.find? h).fields f hf

/-- **Plain names stay plain**: from a schema and a document with plain names come shapes and parameters with plain
names. -/
theorem generate_plainNames (h : s.generate d = .ok g) : g.PlainNames := by
  obtain ⟨hsound, hparameters⟩ := generate_sound h
  have hintegrity := hsound.integrity
  have hnames : ∀ n ∈ (⟨g.shapes⟩ : Registry).names, IsPlain n := List.forall_mem_map.2 (isPlain_of_mem_names hs hd h)
  constructor
  · intro t ht
    have hparts : (∀ values, t.kind = .enumeration values → ∀ v ∈ values, IsPlain v.name) ∧
        ∀ q ∈ t.properties, IsPlain q.name := by
      cases hout : t.kind.isOutput with
      | true =>
        refine ⟨fun values hkind => ?_, (isPlain_of_output hs hd h ht hout).2⟩
        rw [hkind] at hout
        cases hout
      | false => exact isPlain_of_input hs (hsound.input t ht hout)
    refine ⟨isPlain_of_mem_names hs hd h t ht, hparts.1, fun v hv => ?_, fun q hq => ?_⟩
    · obtain ⟨content, hlookup, hkind, htypename⟩ := hintegrity.variants t ht v hv
      have hcontent : content ∈ g.shapes := Registry.mem_of_lookup? hlookup
      refine ⟨htypename ▸ (isPlain_of_output hs hd h hcontent (by rw [hkind]; rfl)).1, ?_⟩
      exact hnames _ (hintegrity.closed t ht _ (.inr ⟨v, hv, rfl⟩))
    · exact ⟨hparts.2 q hq, fun n hn => hnames n (hintegrity.closed t ht n (.inl ⟨q, hq, hn⟩))⟩
  · intro shape hshape q hq
    obtain ⟨op, hop, hall⟩ := exists_of_forall₂_right hparameters hshape
    obtain ⟨v, hv, hname, hbase⟩ := exists_of_forall₂_right hall hq
    refine ⟨hname ▸ (hd.operations op hop).parameters v hv, fun n hn => ?_⟩
    rw [hn] at hbase
    exact hnames n (hbase.mem_names.resolve_right List.not_mem_nil)

end plain

end Schema

end TypedQuery
