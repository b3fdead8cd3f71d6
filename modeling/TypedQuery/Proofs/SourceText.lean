/-
The text that is sent is the text the shapes were made from. Each part of it
is a definition's own text, which reads as that definition wherever it stands
(`Quoted`), so the whole reads as the operation and the fragments it reaches
(`spells_operationSource`). What the operation reaches is the same in that
document as in the one it comes from, and nothing else matters to its shapes
(`generateOperation_congr`).
-/
import TypedQuery.Proofs.Descent
import TypedQuery.Proofs.Excerpts
import TypedQuery.Proofs.Lexing
import TypedQuery.Proofs.Reach

namespace TypedQuery

open Source Reader

/-! ## Texts of definitions in a row -/

/-- In any text, `xs` are lexemes that are read as the definition `v`. -/
structure Quoted (v : Definition) (xs : List Lexeme) : Prop where
  excerpt : Excerpt definition v xs
  lexes : ∀ rest, Lexes rest xs

/-- An executable definition of a clean text is read from its own part of the text. -/
theorem quoted_of_mem {ls : List Lexeme} {rest : List Char} (hlexes : Lexes rest ls)
    (hclean : (definitions ls).clean = true) {v : Definition} (hv : v ∈ (definitions ls).value)
    (hsource : (sourceOf? v).isSome) : ∃ xs, Quoted v xs := by
  obtain ⟨ts, ⟨before, rfl⟩, hts, rfl⟩ := mem_many trims_definition hclean hv
  obtain ⟨v, xs, after, rfl, hexcerpt⟩ := quotes_definition ts hts hsource
  have hread : definition (xs ++ after) = ⟨v, true, after⟩ := hexcerpt.reads rfl rfl
  rw [hread]
  refine ⟨xs, hexcerpt, fun rest' => ?_⟩
  obtain ⟨ys, x, rfl, hx⟩ := hexcerpt.closed
  exact (lexes_append.1 (lexes_append.1 hlexes).2).1.closed hx

/-- All of `text` is read as the definitions `vs`. -/
def Spells (text : List Char) (vs : List Definition) : Prop :=
  ∃ ls, written ls = text ∧ Lexes [] ls ∧ definitions ls = ⟨vs, true, []⟩

theorem spells_nil : Spells [] [] := ⟨[], rfl, .nil, by rw [definitions, many]⟩

/-- The text of a definition may be put in front, with ignored characters before it. -/
theorem Spells.cons {text blank : List Char} {vs : List Definition} {v : Definition} {xs : List Lexeme}
    {source : String} (hv : Quoted v xs) (hsource : sourceOf? v = some source) (hblank : blank.all isIgnored = true)
    (h : Spells text vs) :
    Spells (blank ++ source.toList ++ text) (v :: vs) := by
  obtain ⟨ls, rfl, hlexes, hread⟩ := h
  obtain ⟨ys, x, hxs, -⟩ := hv.excerpt.closed
  obtain ⟨y, ys, rfl⟩ : ∃ y ys, xs = y :: ys := List.exists_cons_of_ne_nil (by simp [hxs])
  have hlexes' : Lexes (written ls ++ []) ({ y with blank := blank } :: ys) := (hv.lexes _).reblank hblank
  refine ⟨{ y with blank := blank } :: ys ++ ls, ?_, lexes_append.2 ⟨hlexes', hlexes⟩, ?_⟩
  · obtain rfl := Option.some.inj (hsource.symm.trans hv.excerpt.source)
    simp [source_cons]
  · have hfirst : definition ({ y with blank := blank } :: ys ++ ls) = ⟨v, true, ls⟩ := hv.excerpt.reads rfl rfl
    exact many_more rfl hfirst hread

theorem parse_of_spells {text : List Char} {v : Definition} {vs : List Definition} (h : Spells text (v :: vs)) :
    Document.parse (String.ofList text) = Document.ofDefinitions (v :: vs) := by
  obtain ⟨ls, rfl, hlexes, hread⟩ := h
  have hscan : lexemes? (written ls) = some ls := by
    have hnil : scan [] = [] := scan_nil rfl
    have hall := hlexes.scan_eq
    rw [List.append_nil, hnil, List.append_nil] at hall
    exact lexemes?_eq_some.2 hall
  cases ls with
  | nil =>
    rw [definitions, many] at hread
    cases hread
  | cons x xs =>
    rw [Document.parse, String.toList_ofList, hscan]
    dsimp only
    rw [hread]
    rfl

namespace Document

/-! ## Documents of definitions -/

/-- The executable definitions of a document. -/
inductive Holds (d : Document) : Definition → Prop
  | operation {op} (h : op ∈ d.operations) : Holds d (.operation op)
  | fragment {f} (h : f ∈ d.fragments) : Holds d (.fragment f)

theorem holds_of_add {u v : Definition} {d d' : Document} (hadd : d.add v = .ok d') (h : d'.Holds u) :
    d.Holds u ∨ u = v := by
  cases v with
  | operation op =>
    cases hadd
    cases h with
    | operation h => exact (List.mem_append.1 h).imp .operation fun h => by rw [List.mem_singleton.1 h]
    | fragment h => exact .inl (.fragment h)
  | fragment f =>
    rw [add] at hadd
    split at hadd
    · cases hadd
    · cases hadd
      cases h with
      | operation h => exact .inl (.operation h)
      | fragment h => exact (List.mem_append.1 h).imp .fragment fun h => by rw [List.mem_singleton.1 h]
  | type | roots | other =>
    cases hadd
    exact .inl h

theorem holds_of_adds {u : Definition} {vs : List Definition} {d d' : Document} (hadds : vs.foldlM add d = .ok d')
    (h : d'.Holds u) : d.Holds u ∨ u ∈ vs := by
  induction vs generalizing d with
  | nil =>
    cases hadds
    exact .inl h
  | cons v vs ih =>
    obtain ⟨d₁, hadd, hadds⟩ := bind_eq_ok.1 hadds
    rcases ih hadds with h | h
    · exact (holds_of_add hadd h).imp_right fun h => by rw [h]; exact List.mem_cons_self
    · exact .inr (List.mem_cons_of_mem _ h)

theorem adds_fragments {d : Document} {fragments : List Fragment}
    (h : ((d.fragments ++ fragments).map (·.name)).Nodup) :
    (fragments.map Definition.fragment).foldlM add d = .ok ⟨d.operations, d.fragments ++ fragments⟩ := by
  induction fragments generalizing d with
  | nil =>
    rw [List.append_nil]
    rfl
  | cons f fragments ih =>
    have hnew : d.fragment? f.name = none := by
      rw [fragment?, List.find?_eq_none]
      intro f' hf' hname
      rw [List.map_append, List.nodup_append'] at h
      exact h.2.2 (List.mem_map_of_mem hf') (by simp_all)
    have hadd : d.add (.fragment f) = .ok { d with fragments := d.fragments ++ [f] } := by simp [add, hnew]
    rw [← List.singleton_append, ← List.append_assoc] at h ⊢
    rw [List.singleton_append, List.map_cons, List.foldlM_cons, hadd]
    exact ih (d := { d with fragments := d.fragments ++ [f] }) h

/-! ## The text that is sent -/

/-- The fragments that an operation reaches, in the order of its text. -/
def fragmentsOf (d : Document) (op : Operation) : List Fragment :=
  (d.reach [] (Selection.spreadsOf op.selections)).filterMap d.fragment?

variable {d : Document} {op : Operation}

theorem mem_fragmentsOf {f : Fragment} : f ∈ d.fragmentsOf op ↔
    ∃ n ∈ Selection.spreadsOf op.selections, ∃ m, Relation.ReflTransGen d.Spreads n m ∧ d.fragment? m = some f := by
  simp only [fragmentsOf, List.mem_filterMap, mem_reach]
  constructor
  · rintro ⟨m, ⟨n, hn, hm⟩, hf⟩
    exact ⟨n, hn, m, hm, hf⟩
  · rintro ⟨n, hn, m, hm, hf⟩
    exact ⟨m, ⟨n, hn, hm⟩, hf⟩

theorem fragmentsOf_nodup : ((d.fragmentsOf op).map (·.name)).Nodup := by
  have hnames : (d.reach [] (Selection.spreadsOf op.selections)).Nodup := reach_nodup List.nodup_nil
  rw [fragmentsOf, List.map_filterMap]
  refine hnames.filterMap fun m m' n hm hm' => ?_
  obtain ⟨f, hf, rfl⟩ := Option.map_eq_some_iff.1 hm
  obtain ⟨f', hf', hname⟩ := Option.map_eq_some_iff.1 hm'
  exact (fragment?_name hf).symm.trans (hname.symm.trans (fragment?_name hf'))

/-- In the document of an operation and the fragments it reaches, what it reaches is the same. -/
theorem sameFrom_fragmentsOf : d.SameFrom ⟨[op], d.fragmentsOf op⟩ (Selection.spreadsOf op.selections) := by
  intro n hn m hm
  have hsame : ∀ f ∈ d.fragmentsOf op, f.name = m → d.fragment? m = some f := by
    intro f hf hname
    obtain ⟨-, -, m', -, hf⟩ := mem_fragmentsOf.1 hf
    rwa [← hname, fragment?_name hf]
  change (d.fragmentsOf op).find? _ = _
  cases hfind : (d.fragmentsOf op).find? (·.name = m) with
  | some f => exact (hsame f (List.mem_of_find?_eq_some hfind) (by simpa using List.find?_some hfind)).symm
  | none =>
    cases hf : d.fragment? m with
    | none => rfl
    | some f =>
      have hnone := List.find?_eq_none.1 hfind f (mem_fragmentsOf.2 ⟨n, hn, m, hm, hf⟩)
      simp [fragment?_name hf] at hnone

theorem toList_foldl (source : String) (fragments : List Fragment) :
    (fragments.foldl (fun text f => text ++ "\n\n" ++ f.source) source).toList =
      source.toList ++ fragments.flatMap fun f => ['\n', '\n'] ++ f.source.toList := by
  induction fragments generalizing source with
  | nil => simp
  | cons f fragments ih => simp [ih]

theorem lexes_of_parse {text : String} (h : parse text = .ok d) : ∃ ls rest, Lexes rest ls ∧
    (definitions ls).clean = true ∧ ofDefinitions (definitions ls).value = .ok d := by
  rw [parse] at h
  split at h
  next => cases h
  next => cases h
  next ls _ hls =>
    obtain ⟨rest, -, hlexes, -⟩ := lexes_of_scan (lexemes?_eq_some.1 hls)
    dsimp only at h
    split at h
    next hclean => exact ⟨ls, rest, hlexes, hclean, h⟩
    next => cases h

/-- The executable definitions of a text that parses are each read from their own part of it. -/
theorem Holds.quoted {text : String} (hparse : parse text = .ok d) {v : Definition} (h : d.Holds v) :
    ∃ xs, Quoted v xs := by
  obtain ⟨ls, rest, hlexes, hclean, hdefinitions⟩ := lexes_of_parse hparse
  have hv : v ∈ (definitions ls).value := (holds_of_adds hdefinitions h).resolve_left fun h => by cases h <;> contradiction
  have hsource : (sourceOf? v).isSome := by cases h <;> rfl
  exact quoted_of_mem hlexes hclean hv hsource

theorem spells_fragments {fragments : List Fragment} (h : ∀ f ∈ fragments, ∃ xs, Quoted (.fragment f) xs) :
    Spells (fragments.flatMap fun f => ['\n', '\n'] ++ f.source.toList) (fragments.map .fragment) := by
  induction fragments with
  | nil => exact spells_nil
  | cons f fragments ih =>
    obtain ⟨⟨xs, hf⟩, hrest⟩ := List.forall_mem_cons.1 h
    exact (ih hrest).cons hf rfl rfl

/-- The text that is sent for an operation is read as the operation and the fragments it reaches. -/
theorem spells_operationSource {text : String} (h : parse text = .ok d) (hop : op ∈ d.operations) :
    Spells (d.operationSource op).toList (.operation op :: (d.fragmentsOf op).map .fragment) := by
  obtain ⟨xs, hxs⟩ := (Holds.operation hop).quoted h
  have hreached : ∀ f ∈ d.fragmentsOf op, ∃ xs, Quoted (.fragment f) xs := by
    intro f hf
    obtain ⟨-, -, m, -, hf⟩ := mem_fragmentsOf.1 hf
    exact (Holds.fragment (List.mem_of_find?_eq_some hf)).quoted h
  have htext : (d.operationSource op).toList =
      [] ++ op.source.toList ++ (d.fragmentsOf op).flatMap fun f => ['\n', '\n'] ++ f.source.toList :=
    toList_foldl _ _
  rw [htext]
  exact (spells_fragments hreached).cons hxs rfl rfl

/-! ## Shapes -/

theorem generateOperation_congr {s : Schema} {d' : Document}
    (h : d.SameFrom d' (Selection.spreadsOf op.selections)) : s.generateOperation d' op = s.generateOperation d op := by
  have hshapes : s.operationShapes d' op = s.operationShapes d op := by
    rw [Schema.operationShapes, Schema.operationShapes, checkCycles_congr h, operationSource_congr h]
    refine liftExcept_bind_congr fun _ hcycles => ?_
    rw [expand_congr (acyclicFrom_of_checkCycles hcycles) h]
  rw [Schema.generateOperation, Schema.generateOperation, hshapes]

/-- **The text that is sent is the text the shapes were made from.** For every operation of a text that
parses, the text that is sent parses, to that operation and exactly the fragments which it reaches; on
that document the operation makes the same shapes, or fails with the same error, as on the whole one. -/
theorem operationSource_parses {text : String} (h : parse text = .ok d) (hop : op ∈ d.operations) :
    ∃ fragments, parse (d.operationSource op) = .ok ⟨[op], fragments⟩ ∧
      (fragments.map (·.name)).Nodup ∧
      (∀ f, f ∈ fragments ↔ ∃ n ∈ Selection.spreadsOf op.selections, ∃ m,
        Relation.ReflTransGen d.Spreads n m ∧ d.fragment? m = some f) ∧
      ∀ s : Schema, s.generateOperation ⟨[op], fragments⟩ op = s.generateOperation d op := by
  refine ⟨d.fragmentsOf op, ?_, fragmentsOf_nodup, fun _ => mem_fragmentsOf,
    fun s => generateOperation_congr sameFrom_fragmentsOf⟩
  have hparse := parse_of_spells (spells_operationSource h hop)
  rw [String.ofList_toList] at hparse
  rw [hparse]
  exact adds_fragments (d := ⟨[op], []⟩) fragmentsOf_nodup

/-! An operation reaches one fragment through another, and a third not at all. -/

def threeFragments : String :=
  "query Me \x7b user \x7b ...Outer \x7d \x7d\nfragment Inner on User \x7b id \x7d " ++
  "fragment Unused on User \x7b id \x7d\nfragment Outer on User \x7b name ...Inner \x7d"

theorem threeFragments_operationSource : ∃ d op fragments, parse threeFragments = .ok d ∧ op ∈ d.operations ∧
    op.name? = some "Me" ∧ d.fragments.map (·.name) = ["Inner", "Unused", "Outer"] ∧
    parse (d.operationSource op) = .ok ⟨[op], fragments⟩ ∧
    ∀ s : Schema, s.generateOperation ⟨[op], fragments⟩ op = s.generateOperation d op := by
  have hcheck : (match parse threeFragments with
      | .ok d => d.operations.map (·.name?) == [some "Me"] && d.fragments.map (·.name) == ["Inner", "Unused", "Outer"]
      | .error _ => false) = true := by decide +kernel
  cases hparse : parse threeFragments with
  | error e =>
    rw [hparse] at hcheck
    cases hcheck
  | ok d =>
    rw [hparse, Bool.and_eq_true, beq_iff_eq, beq_iff_eq] at hcheck
    obtain ⟨hnames, hfragments⟩ := hcheck
    obtain ⟨op, hop, hname⟩ := List.map_eq_singleton_iff.1 hnames
    have hin : op ∈ d.operations := hop ▸ List.mem_cons_self
    obtain ⟨fragments, hsource, -, -, hshapes⟩ := operationSource_parses hparse hin
    exact ⟨d, op, fragments, rfl, hin, hname, hfragments, hsource, hshapes⟩

end Document

end TypedQuery
