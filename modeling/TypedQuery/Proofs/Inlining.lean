/-
A spread means its body. `WritesOut` relates two documents where in the second
one spread is replaced by the fragment it names, written as an inline fragment
in its place; the spread may stand in a fragment that is itself spread at many
places. By induction over what a document opens to (`Opens.writtenOut`), both
open to the same selections but for labels, and so the runs over both are
alike (`generate_writtenOut`).
-/
import TypedQuery.Proofs.AlikeRuns
import TypedQuery.Proofs.Naming

namespace TypedQuery

open Generator

namespace Document

/-! ## Documents with spreads written out -/

/-- One of the spreads in the first selections, at any depth, is written out in the second. -/
inductive WritesOutIn (d : Document) : List Selection → List Selection → Prop
  | spread {name c f rest} (hf : d.fragment? name = some f) :
    WritesOutIn d (.spread name c :: rest) (.inline (some f.condition) c f.selections :: rest)
  | field {alias? name c sub sub' rest} (h : WritesOutIn d sub sub') :
    WritesOutIn d (.field alias? name c sub :: rest) (.field alias? name c sub' :: rest)
  | inline {condition? c sub sub' rest} (h : WritesOutIn d sub sub') :
    WritesOutIn d (.inline condition? c sub :: rest) (.inline condition? c sub' :: rest)
  | later {selection rest rest'} (h : WritesOutIn d rest rest') : WritesOutIn d (selection :: rest) (selection :: rest')

/-- `d'` is `d` with one spread written out, in an operation or in a fragment. What the text of that
definition is does not matter. -/
inductive WritesOut (d d' : Document) : Prop
  | operation {before op after selections source} (hops : d.operations = before ++ op :: after)
    (h : d.WritesOutIn op.selections selections)
    (hops' : d'.operations = before ++ { op with selections := selections, source := source } :: after)
    (hfragments : d'.fragments = d.fragments) : WritesOut d d'
  | fragment {before f after selections source} (hops : d'.operations = d.operations)
    (hfragments : d.fragments = before ++ f :: after) (h : d.WritesOutIn f.selections selections)
    (hfragments' : d'.fragments = before ++ { f with selections := selections, source := source } :: after) :
    WritesOut d d'

/-- Any of the spreads in the first selections are written out in the second. -/
inductive WrittenOut (d : Document) : List Selection → List Selection → Prop
  | nil : WrittenOut d [] []
  | field {alias? name c sub sub' rest rest'} (h : WrittenOut d sub sub') (hr : WrittenOut d rest rest') :
    WrittenOut d (.field alias? name c sub :: rest) (.field alias? name c sub' :: rest')
  | inline {condition? c sub sub' rest rest'} (h : WrittenOut d sub sub') (hr : WrittenOut d rest rest') :
    WrittenOut d (.inline condition? c sub :: rest) (.inline condition? c sub' :: rest')
  | kept {name c rest rest'} (hr : WrittenOut d rest rest') :
    WrittenOut d (.spread name c :: rest) (.spread name c :: rest')
  | spread {name c f rest rest'} (hf : d.fragment? name = some f) (hr : WrittenOut d rest rest') :
    WrittenOut d (.spread name c :: rest) (.inline (some f.condition) c f.selections :: rest')

section WrittenOut

variable {d d' : Document} {selections selections' : List Selection}

theorem WrittenOut.refl (d : Document) : ∀ selections, d.WrittenOut selections selections
  | [] => .nil
  | .field _ _ _ sub :: rest => .field (refl d sub) (refl d rest)
  | .inline _ _ sub :: rest => .inline (refl d sub) (refl d rest)
  | .spread _ _ :: rest => .kept (refl d rest)

theorem WritesOutIn.writtenOut (h : d.WritesOutIn selections selections') : d.WrittenOut selections selections' := by
  induction h with
  | spread hf => exact .spread hf (.refl d _)
  | field _ ih => exact .field ih (.refl d _)
  | inline _ ih => exact .inline ih (.refl d _)
  | @later selection _ _ _ ih =>
    cases selection with
    | field => exact .field (.refl d _) ih
    | inline => exact .inline (.refl d _) ih
    | spread => exact .kept ih

/-- The same fragment, where spreads may be written out. -/
def FragmentWrittenOut (d : Document) (f f' : Fragment) : Prop :=
  f.condition = f'.condition ∧ d.WrittenOut f.selections f'.selections

/-- The same operation, where spreads may be written out. -/
structure OperationWrittenOut (d : Document) (op op' : Operation) : Prop where
  name? : op.name? = op'.name?
  kind : op.kind = op'.kind
  parameters : op.parameters = op'.parameters
  selections : d.WrittenOut op.selections op'.selections

/-- Operations and fragments of the same names, where spreads may be written out. -/
structure AllWrittenOut (d d' : Document) : Prop where
  operations : List.Forall₂ d.OperationWrittenOut d.operations d'.operations
  fragments : ∀ name, Option.Rel d.FragmentWrittenOut (d.fragment? name) (d'.fragment? name)

theorem FragmentWrittenOut.refl (d : Document) (f : Fragment) : d.FragmentWrittenOut f f := ⟨rfl, .refl d _⟩

theorem OperationWrittenOut.refl (d : Document) (op : Operation) : d.OperationWrittenOut op op :=
  ⟨rfl, rfl, rfl, .refl d _⟩

theorem forall₂_replace {α : Type} {R : α → α → Prop} (hrefl : ∀ a, R a a) {a a' : α} (h : R a a') :
    ∀ before after : List α, List.Forall₂ R (before ++ a :: after) (before ++ a' :: after)
  | [], _ => .cons h (List.forall₂_same.2 fun a _ => hrefl a)
  | b :: before, after => .cons (hrefl b) (forall₂_replace hrefl h before after)

theorem optionRel_find? {α β : Type} {R : α → β → Prop} {p : α → Bool} {q : β → Bool} {as : List α} {bs : List β}
    (h : List.Forall₂ (fun a b => p a = q b ∧ R a b) as bs) : Option.Rel R (as.find? p) (bs.find? q) := by
  induction h with
  | nil => exact .none
  | @cons a b as bs hab _ ih =>
    rw [List.find?_cons, List.find?_cons, ← hab.1]
    cases p a
    · exact ih
    · exact .some hab.2

theorem WritesOut.allWrittenOut (h : d.WritesOut d') : d.AllWrittenOut d' := by
  cases h with
  | operation hops h hops' hfragments =>
    constructor
    · rw [hops, hops']
      exact forall₂_replace (.refl d) ⟨rfl, rfl, rfl, h.writtenOut⟩ _ _
    · intro name
      rw [fragment?, fragment?, hfragments]
      exact optionRel_find? (List.forall₂_same.2 fun f _ => ⟨rfl, .refl d f⟩)
  | fragment hops hfragments h hfragments' =>
    constructor
    · rw [hops]
      exact List.forall₂_same.2 fun op _ => .refl d op
    · intro name
      rw [fragment?, fragment?, hfragments, hfragments']
      exact optionRel_find? (forall₂_replace (fun f => ⟨rfl, .refl d f⟩) ⟨rfl, rfl, h.writtenOut⟩ _ _)

/-! ## What they open to -/

/-- Spreads that are written out open to the same selections but for labels. -/
theorem Opens.writtenOut (hd : d.AllWrittenOut d') {expanded : List Expanded} (h : d.Opens selections expanded)
    (hs : d.WrittenOut selections selections') :
    ∃ expanded', d'.Opens selections' expanded' ∧ Expanded.Relabels expanded expanded' := by
  induction h generalizing selections' with
  | nil =>
    cases hs
    exact ⟨_, .nil, .nil⟩
  | field _ _ ih ihr =>
    cases hs with
    | field hsub hrest =>
      obtain ⟨_, hopens, hrelabels⟩ := ih hsub
      obtain ⟨_, hopensr, hrelabelsr⟩ := ihr hrest
      exact ⟨_, .field hopens hopensr, .field hrelabels hrelabelsr⟩
  | inline _ _ ih ihr =>
    cases hs with
    | inline hsub hrest =>
      obtain ⟨_, hopens, hrelabels⟩ := ih hsub
      obtain ⟨_, hopensr, hrelabelsr⟩ := ihr hrest
      exact ⟨_, .inline hopens hopensr, .fragment (fun _ => rfl) hrelabels hrelabelsr⟩
  | @spread name c f _ _ _ hf _ _ ih ihr =>
    cases hs with
    | kept hrest =>
      obtain ⟨_, hopensr, hrelabelsr⟩ := ihr hrest
      have hrel := hd.fragments name
      rw [hf] at hrel
      generalize hf' : d'.fragment? name = f'? at hrel
      cases hrel with
      | some hfragment =>
        obtain ⟨_, hopens, hrelabels⟩ := ih hfragment.2
        rw [hfragment.1]
        exact ⟨_, .spread hf' hopens hopensr, .fragment nofun hrelabels hrelabelsr⟩
    | spread hf' hrest =>
      obtain rfl := Option.some.inj (hf.symm.trans hf')
      obtain ⟨_, hopensr, hrelabelsr⟩ := ihr hrest
      obtain ⟨_, hopens, hrelabels⟩ := ih (.refl d _)
      exact ⟨_, .inline hopens hopensr, .fragment nofun hrelabels hrelabelsr⟩
  | @undefined name _ _ _ hf _ ihr =>
    cases hs with
    | kept hrest =>
      obtain ⟨_, hopensr, hrelabelsr⟩ := ihr hrest
      have hrel := hd.fragments name
      rw [hf] at hrel
      generalize hf' : d'.fragment? name = f'? at hrel
      cases hrel
      exact ⟨_, .undefined hf' hopensr, .undefined hrelabelsr⟩
    | spread hf' => cases hf.symm.trans hf'

/-- Of selections that reach no cycle, those with spreads written out reach none either, and expand
to the same but for labels. -/
theorem expand_writtenOut (hd : d.AllWrittenOut d') (hac : d.AcyclicFrom selections)
    (hs : d.WrittenOut selections selections') :
    d'.checkCycles selections' = .ok () ∧ Expanded.Relabels (d.expand selections) (d'.expand selections') := by
  obtain ⟨expanded', hopens, hrelabels⟩ := (expand_opens hac).writtenOut hd hs
  have hcycles := checkCycles_of_ends hopens.ends
  rw [(expand_opens (acyclicFrom_of_checkCycles hcycles)).unique hopens]
  exact ⟨hcycles, hrelabels⟩

end WrittenOut

end Document

/-! ## Runs over them -/

/-- The same operation, but for its text. -/
structure OperationShape.SameButSource (shape shape' : OperationShape) : Prop where
  name? : shape.name? = shape'.name?
  kind : shape.kind = shape'.kind
  dataType : shape.dataType = shape'.dataType
  parameters : shape.parameters = shape'.parameters

/-- The same shapes in the same order, and the same operations but for their texts. -/
structure Generation.SameButSource (g g' : Generation) : Prop where
  operations : List.Forall₂ OperationShape.SameButSource g.operations g'.operations
  shapes : g.shapes = g'.shapes

namespace Schema

variable {s : Schema} {d d' : Document}

theorem operationShapes_alike (hd : d.AllWrittenOut d') {op op' : Operation} (hop : d.OperationWrittenOut op op')
    (hac : d.AcyclicFrom op.selections) :
    Alike OperationShape.SameButSource (s.operationShapes d op) (s.operationShapes d' op') := by
  have hcycles : d.checkCycles op.selections = .ok () := Document.checkCycles_of_ends (Document.expand_opens hac).ends
  obtain ⟨hcycles', hrelabels⟩ := Document.expand_writtenOut hd hac hop.selections
  unfold operationShapes
  have hname : ∀ root, op'.dataTypeName root = op.dataTypeName root := fun root => by
    rw [Operation.dataTypeName, Operation.dataTypeName, hop.name?]
  rw [hcycles, hcycles', ← hop.kind, ← hop.parameters, ← hop.name?]
  refine (Alike.refl _).bind fun _ _ _ => (Alike.refl _).bind fun t t' ht => ?_
  subst ht
  cases t with
  | object root =>
    dsimp only
    rw [hname, resolverFor, resolverFor, ← hrelabels.levelsOf_eq]
    refine (objectShape_alike (fieldType_blind s _) root hrelabels _).bind fun dataType _ hdata => ?_
    subst hdata
    refine (Alike.refl _).bind fun parameters _ hparameters => ?_
    subst hparameters
    exact alike_pure ⟨rfl, rfl, rfl, rfl⟩
  | scalar | enumeration | interface | union | input => exact alike_throw _

theorem generateOperation_alike (hd : d.AllWrittenOut d') {op op' : Operation} (hop : d.OperationWrittenOut op op')
    (hac : d.AcyclicFrom op.selections) :
    Alike OperationShape.SameButSource (s.generateOperation d op) (s.generateOperation d' op') := fun p => by
  have hp := operationShapes_alike (s := s) hd hop hac p
  rw [outcome_generateOperation, outcome_generateOperation]
  rcases hx : outcome (s.operationShapes d op) p with ⟨r, q⟩
  rcases hy : outcome (s.operationShapes d' op') p with ⟨r', q'⟩
  rw [hx, hy] at hp
  obtain ⟨rfl, hr⟩ : q = q' ∧ ResultsAlike OperationShape.SameButSource r r' := hp
  cases hr with
  | ok h => exact ⟨rfl, .ok h⟩
  | error h => exact ⟨rfl, .error h⟩

/-- **A spread means its body.** Where no operation reaches a cycle of fragments, a spread that is
written out changes nothing: with it the run succeeds or fails as without it, with the same shapes in
the same order, data and variables, or with the same error but for the label of a fragment. -/
theorem generate_writtenOut (hac : ∀ op ∈ d.operations, d.AcyclicFrom op.selections) (h : d.WritesOut d') :
    ResultsAlike Generation.SameButSource (s.generate d) (s.generate d') := by
  have hd := h.allWrittenOut
  have hops : List.Forall₂ (fun op op' => d.OperationWrittenOut op op' ∧ d.AcyclicFrom op.selections)
      d.operations d'.operations := forall₂_imp_mem hd.operations fun op hop op' hop' => ⟨hop', hac op hop⟩
  have hrun := alike_mapM (f := s.generateOperation d) (g := s.generateOperation d')
    (fun _ _ hop => generateOperation_alike hd hop.1 hop.2) hops .start
  unfold generate
  rcases hx : outcome (d.operations.mapM (s.generateOperation d)) .start with ⟨r, q⟩
  rcases hy : outcome (d'.operations.mapM (s.generateOperation d')) .start with ⟨r', q'⟩
  rw [hx, hy] at hrun
  obtain ⟨rfl, hr⟩ : q = q' ∧ ResultsAlike (List.Forall₂ OperationShape.SameButSource) r r' := hrun
  rw [show (d.operations.mapM (s.generateOperation d)).run .start = _ from hx,
    show (d'.operations.mapM (s.generateOperation d')).run .start = _ from hy]
  cases hr with
  | ok h => exact .ok ⟨h, rfl⟩
  | error h => exact .error h

/-! A user's name and identifier, through one fragment in another; the inner one is written out. -/

def nestedDocument : Document where
  operations := [⟨some "Me", .query, [], [.field none "user" false [.spread "Outer" false]],
    "query Me \x7b user \x7b ...Outer \x7d \x7d"⟩]
  fragments := [
    ⟨"Outer", "User", [.field none "name" false [], .spread "Inner" true],
      "fragment Outer on User \x7b name ...Inner @include(if: true) \x7d"⟩,
    ⟨"Inner", "User", [.field none "id" false []], "fragment Inner on User \x7b id \x7d"⟩]

def flatDocument : Document where
  operations := nestedDocument.operations
  fragments := [
    ⟨"Outer", "User", [.field none "name" false [], .inline (some "User") true [.field none "id" false []]],
      "fragment Outer on User \x7b name ... on User @include(if: true) \x7b id \x7d \x7d"⟩,
    ⟨"Inner", "User", [.field none "id" false []], "fragment Inner on User \x7b id \x7d"⟩]

theorem nestedDocument_writtenOut : nestedDocument.WritesOut flatDocument ∧
    (∃ g, (people "Role").generate nestedDocument = .ok g ∧ g.shapes.map (·.name) = ["User", "MeData"]) ∧
    ResultsAlike Generation.SameButSource ((people "Role").generate nestedDocument)
      ((people "Role").generate flatDocument) := by
  have hwrites : nestedDocument.WritesOut flatDocument :=
    .fragment rfl (List.nil_append nestedDocument.fragments).symm (.later (.spread rfl)) rfl
  refine ⟨hwrites, ⟨_, by cbv, by cbv⟩, generate_writtenOut (List.forall_mem_singleton.2 ?_) hwrites⟩
  exact Document.acyclicFrom_of_checkCycles (by cbv)

end Schema

end TypedQuery
