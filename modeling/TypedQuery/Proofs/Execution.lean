/-
Responses: the trees that execution can return for an operation. A run keeps
or leaves out each selection that carries `@skip` or `@include`, picks a
run-time type for each object, and may answer `null` where the declared type
allows it. A selection that is met twice may be kept once and left out once,
so these are at least the responses of a server.

`Valid` and `Complete` are what validation of the schema and of the document
promises of them.
-/
import TypedQuery.Generation
import TypedQuery.Proofs.Opening
import TypedQuery.Proofs.SchemaFacts

namespace TypedQuery

/-- A leaf holds the name of its scalar or enum, and a value of it. -/
inductive Response
  | null
  | leaf (type value : String)
  | list (items : List Response)
  | object (fields : List (String × Response))

def Selection.isConditional : Selection → Bool
  | field _ _ conditional _ => conditional
  | spread _ conditional => conditional
  | inline _ conditional _ => conditional

/-- A field that a run has kept. -/
structure KeptField where
  key : String
  name : String
  selections : List Selection

namespace Document

/-- A run of field collection for the run-time type `R`: the fields kept, in the order of the text.
A fragment applies if `R` is one of the possible types of its condition. -/
inductive Collects (d : Document) (s : Schema) (R : String) : List Selection → List KeptField → Prop
  | nil : Collects d s R [] []
  | leaveOut {selection rest kept} (hc : Selection.isConditional selection = true)
    (hr : Collects d s R rest kept) : Collects d s R (selection :: rest) kept
  | field {alias? name c sub rest kept} (hr : Collects d s R rest kept) :
    Collects d s R (.field alias? name c sub :: rest) (⟨alias?.getD name, name, sub⟩ :: kept)
  | inline {condition? c inner rest kept more} (ha : ∀ t ∈ condition?, R ∈ s.possibleTypes t)
    (hin : Collects d s R inner kept) (hr : Collects d s R rest more) :
    Collects d s R (.inline condition? c inner :: rest) (kept ++ more)
  | inlineOther {t c inner rest kept} (hn : R ∉ s.possibleTypes t) (hr : Collects d s R rest kept) :
    Collects d s R (.inline (some t) c inner :: rest) kept
  | spread {name c f rest kept more} (hf : d.fragment? name = some f) (ha : R ∈ s.possibleTypes f.condition)
    (hin : Collects d s R f.selections kept) (hr : Collects d s R rest more) :
    Collects d s R (.spread name c :: rest) (kept ++ more)
  | spreadOther {name c f rest kept} (hf : d.fragment? name = some f) (hn : R ∉ s.possibleTypes f.condition)
    (hr : Collects d s R rest kept) : Collects d s R (.spread name c :: rest) kept

/-- A run keeps only what occurs. -/
theorem Collects.occurs {d : Document} {s : Schema} {R : String} {selections : List Selection}
    {kept : List KeptField} (h : d.Collects s R selections kept) :
    ∀ k ∈ kept, ∃ c, d.Occurs (R ∈ s.possibleTypes ·) selections k.key k.name c k.selections := by
  induction h with
  | nil => simp
  | leaveOut _ _ ih | inlineOther _ _ ih | spreadOther _ _ _ ih =>
    intro k hk
    obtain ⟨c, ho⟩ := ih k hk
    exact ⟨c, occurs_cons.2 (.inr ho)⟩
  | field _ ih =>
    intro k hk
    rcases List.mem_cons.1 hk with rfl | hk
    · exact ⟨_, occurs_cons.2 (.inl (occurs_field.2 ⟨rfl, rfl, rfl, rfl⟩))⟩
    · obtain ⟨c, ho⟩ := ih k hk
      exact ⟨c, occurs_cons.2 (.inr ho)⟩
  | inline ha _ _ ihin ihr =>
    intro k hk
    rcases List.mem_append.1 hk with hk | hk
    · obtain ⟨c, ho⟩ := ihin k hk
      exact ⟨_, occurs_cons.2 (.inl (occurs_inline.2 ⟨ha, c, rfl, ho⟩))⟩
    · obtain ⟨c, ho⟩ := ihr k hk
      exact ⟨c, occurs_cons.2 (.inr ho)⟩
  | spread hf ha _ _ ihin ihr =>
    intro k hk
    rcases List.mem_append.1 hk with hk | hk
    · obtain ⟨c, ho⟩ := ihin k hk
      exact ⟨_, occurs_cons.2 (.inl (occurs_spread.2 ⟨_, hf, ha, c, rfl, ho⟩))⟩
    · obtain ⟨c, ho⟩ := ihr k hk
      exact ⟨c, occurs_cons.2 (.inr ho)⟩

theorem isConditional_of_occurs {d : Document} {applies : String → Prop} {selection : Selection}
    {key name : String} {below : List Selection} (h : d.Occurs applies [selection] key name false below) :
    selection.isConditional = false := by
  cases selection with
  | field =>
    obtain ⟨-, -, rfl, -⟩ := occurs_field.1 h
    rfl
  | inline =>
    obtain ⟨-, c, hc, -⟩ := occurs_inline.1 h
    exact (Bool.or_eq_false_iff.1 hc.symm).1
  | spread =>
    obtain ⟨-, -, -, c, hc, -⟩ := occurs_spread.1 h
    exact (Bool.or_eq_false_iff.1 hc.symm).1

/-- A run keeps what is not conditional. -/
theorem Collects.keeps {d : Document} {s : Schema} {R : String} {selections : List Selection}
    {kept : List KeptField} (h : d.Collects s R selections kept) {key name : String} {below : List Selection}
    (ho : d.Occurs (R ∈ s.possibleTypes ·) selections key name false below) : ⟨key, name, below⟩ ∈ kept := by
  induction h with
  | nil => simp at ho
  | @leaveOut selection rest kept hc _ ih =>
    rcases occurs_cons.1 ho with ho | ho
    · cases hc.symm.trans (isConditional_of_occurs ho)
    · exact ih ho
  | field _ ih =>
    rcases occurs_cons.1 ho with ho | ho
    · obtain ⟨rfl, rfl, -, rfl⟩ := occurs_field.1 ho
      exact List.mem_cons_self
    · exact List.mem_cons_of_mem _ (ih ho)
  | inline _ _ _ ihin ihr =>
    rcases occurs_cons.1 ho with ho | ho
    · obtain ⟨-, c', hf, hin⟩ := occurs_inline.1 ho
      obtain ⟨-, rfl⟩ := Bool.or_eq_false_iff.1 hf.symm
      exact List.mem_append_left _ (ihin hin)
    · exact List.mem_append_right _ (ihr ho)
  | inlineOther hn _ ih =>
    rcases occurs_cons.1 ho with ho | ho
    · exact absurd ((occurs_inline.1 ho).1 _ rfl) hn
    · exact ih ho
  | spread hf _ _ _ ihin ihr =>
    rcases occurs_cons.1 ho with ho | ho
    · obtain ⟨f', hf', -, c', hflag, hin⟩ := occurs_spread.1 ho
      obtain rfl := Option.some.inj (hf.symm.trans hf')
      obtain ⟨-, rfl⟩ := Bool.or_eq_false_iff.1 hflag.symm
      exact List.mem_append_left _ (ihin hin)
    · exact List.mem_append_right _ (ihr ho)
  | spreadOther hf hn _ ih =>
    rcases occurs_cons.1 ho with ho | ho
    · obtain ⟨f', hf', ha, -⟩ := occurs_spread.1 ho
      obtain rfl := Option.some.inj (hf.symm.trans hf')
      exact absurd ha hn
    · exact ih ho

end Document

/-! ## Answers -/

/-- The declaration of a field of the type; that of `__typename` is not the type's own. -/
def Schema.fieldOn? (s : Schema) (type name : String) : Option FieldDefinition :=
  if name = typenameField.name then none else (s.fieldsOf type).find? (·.name = name)

/-- What is selected below a response key: the selections of all its fields in a row. -/
def KeptField.below (kept : List KeptField) (key : String) : List Selection :=
  ((kept.filter (·.key = key)).map (·.selections)).flatten

/-- The responses to selections on a type. An object answers exactly the keys kept for its run-time
type, each by the field of the first selection that returns it. A field that the type does not
declare may answer anything. -/
inductive Document.Answers (d : Document) (s : Schema) : TypeRef → List Selection → Response → Prop
  | null {type selections} (h : TypeRef.isNonNull type = false) : Answers d s type selections .null
  | nonNull {type selections v} (hv : v ≠ .null) (h : Answers d s type selections v) :
    Answers d s (.nonNull type) selections v
  | list {type selections items} (h : ∀ v ∈ items, Answers d s type selections v) :
    Answers d s (.list type) selections (.list items)
  | scalar {name selections sd x} (h : s.find? name = some (.scalar sd)) :
    Answers d s (.named name) selections (.leaf name x)
  | enumeration {name selections ed x} (h : s.find? name = some (.enumeration ed))
    (hx : x ∈ ed.values.map (·.name)) : Answers d s (.named name) selections (.leaf name x)
  | object {name R selections kept fields} (hR : R ∈ s.possibleTypes name)
    (hkept : d.Collects s R selections kept) (hdistinct : (fields.map (·.1)).Nodup)
    (hkeys : ∀ key, key ∈ fields.map (·.1) ↔ key ∈ kept.map (·.key))
    (htypename : ∀ f ∈ fields, ∀ k, kept.find? (·.key = f.1) = some k → k.name = typenameField.name →
      f.2 = .leaf "String" R)
    (hvalues : ∀ f ∈ fields, ∀ k, kept.find? (·.key = f.1) = some k → ∀ g, s.fieldOn? R k.name = some g →
      Answers d s g.type (KeptField.below kept f.1) f.2) :
    Answers d s (.named name) selections (.object fields)

/-- What execution can return as the data of an operation. -/
def Document.Responds (d : Document) (s : Schema) (op : Operation) (v : Response) : Prop :=
  d.Answers s (.nonNull (.named (s.rootType op.kind))) op.selections v

/-! ## Validity -/

/-- The list layers of `a` are those of `b`, and `a` is non-null wherever `b` is. -/
def TypeRef.refines : TypeRef → TypeRef → Bool
  | .nonNull a, .nonNull b => a.refines b
  | .nonNull a, b => a.refines b
  | .list a, .list b => a.refines b
  | .named _, .named _ => true
  | _, _ => false

namespace Schema

def isLeaf (s : Schema) (name : String) : Bool :=
  match s.find? name with
  | some (.scalar _) | some (.enumeration _) => true
  | _ => false

/-- A field of type `a` may stand for one of type `b`. -/
structure Covariant (s : Schema) (a b : TypeRef) : Prop where
  layers : a.refines b = true
  leaf : s.isLeaf a.baseName = true → a.baseName = b.baseName
  composite : s.isLeaf a.baseName = false → ∀ R ∈ s.possibleTypes a.baseName, R ∈ s.possibleTypes b.baseName

/-- Each object declares every field of each interface it implements with a covariant type, each
union lists distinct objects, and the built-in scalars are scalars. -/
structure Valid (s : Schema) : Prop where
  distinct : s.Distinct
  implements : ∀ o, .object o ∈ s.types → ∀ i ∈ o.interfaces, ∀ t, s.find? i = some (.interface t) →
    ∀ f ∈ t.fields, ∃ g, o.fields.find? (·.name = f.name) = some g ∧ s.Covariant g.type f.type
  members : s.DistinctMembers
  objects : ∀ u, .union u ∈ s.types → ∀ m ∈ u.members, ∃ o, s.find? m = some (.object o)
  builtin : ∀ b ∈ ScalarMappings.builtin, ∀ t, s.find? b.1 = some t → t.kind = .scalar

end Schema

mutual

/-- Every field in a selection on `type` that is of a composite type, on an object on which the
selection can be executed, selects something. -/
def Selection.Complete (s : Schema) : Selection → String → Prop
  | .field _ name _ sub, type => ∀ R ∈ s.possibleTypes type, ∀ f, s.fieldOn? R name = some f →
      (∀ t, s.find? f.type.baseName = some t → t.isComposite = true → sub ≠ []) ∧
        CompleteAll s sub f.type.baseName
  | .spread _ _, _ => True
  | .inline condition? _ sub, type => CompleteAll s sub (condition?.getD type)

def Selection.CompleteAll (s : Schema) : List Selection → String → Prop
  | [], _ => True
  | selection :: rest, type => selection.Complete s type ∧ CompleteAll s rest type

end

/-- Every occurrence of a field of a composite type selects something. -/
structure Document.Complete (d : Document) (s : Schema) : Prop where
  operations : ∀ op ∈ d.operations, Selection.CompleteAll s op.selections (s.rootType op.kind)
  fragments : ∀ f ∈ d.fragments, Selection.CompleteAll s f.selections f.condition

/-! ## What validity gives -/

theorem TypeRef.refines_refl (a : TypeRef) : a.refines a = true := by
  induction a with
  | named => rfl
  | list a ih => exact ih
  | nonNull a ih => exact ih

namespace Schema

theorem Covariant.refl (s : Schema) (a : TypeRef) : s.Covariant a a :=
  ⟨a.refines_refl, fun _ => rfl, fun _ _ h => h⟩

theorem isLeaf_of_scalar {s : Schema} {name : String} {d : ScalarDefinition}
    (h : s.find? name = some (.scalar d)) : s.isLeaf name = true := by
  simp [isLeaf, h]

theorem isLeaf_of_enumeration {s : Schema} {name : String} {d : EnumDefinition}
    (h : s.find? name = some (.enumeration d)) : s.isLeaf name = true := by
  simp [isLeaf, h]

theorem isLeaf_of_mem_possibleTypes {s : Schema} {name R : String} (h : R ∈ s.possibleTypes name) :
    s.isLeaf name = false := by
  obtain ⟨t, ht, hc⟩ := composite_of_mem_possibleTypes h
  cases t with
  | object | interface | union => simp [isLeaf, ht]
  | scalar | enumeration | input => cases hc

/-- Where a type declares a field, its run-time types declare it with a covariant type. -/
theorem Valid.declares {s : Schema} (hs : s.Valid) {type R name : String} (hR : R ∈ s.possibleTypes type)
    {f : FieldDefinition} (hf : (s.fieldsOf type).find? (·.name = name) = some f) :
    ∃ g, (s.fieldsOf R).find? (·.name = name) = some g ∧ s.Covariant g.type f.type := by
  obtain ⟨t, ht, hc⟩ := composite_of_mem_possibleTypes hR
  cases t with
  | object o =>
    rw [possibleTypes_object ht, List.mem_singleton] at hR
    subst hR
    exact ⟨f, hf, .refl s _⟩
  | interface i =>
    obtain ⟨o, ho, hi, rfl⟩ := (mem_possibleTypes_interface ht).1 hR
    have hname : f.name = name := by simpa using List.find?_some hf
    have hfields : s.fieldsOf o.name = o.fields := fieldsOf_eq (t := .object o) (hs.distinct.find?_of_mem ho)
    have hmem : f ∈ s.fieldsOf type := List.mem_of_find?_eq_some hf
    rw [fieldsOf_eq ht] at hmem
    obtain ⟨g, hg, hcov⟩ := hs.implements o ho type hi i ht f hmem
    rw [hname, ← hfields] at hg
    exact ⟨g, hg, hcov⟩
  | union u =>
    rw [fieldsOf_eq ht] at hf
    cases hf
  | scalar | enumeration | input => cases hc

end Schema

theorem Selection.completeAll_iff {s : Schema} {selections : List Selection} {type : String} :
    CompleteAll s selections type ↔ ∀ selection ∈ selections, selection.Complete s type := by
  induction selections with
  | nil => simp [CompleteAll]
  | cons selection rest ih => simp [CompleteAll, ih]

/-- Below a field that occurs for a run-time type, selections are complete on the field's type. -/
theorem Document.Complete.occurs {d : Document} {s : Schema} (hd : d.Complete s) {R : String}
    {selections below : List Selection} {key name : String} {c : Bool}
    (h : d.Occurs (R ∈ s.possibleTypes ·) selections key name c below) {type : String}
    (hc : Selection.CompleteAll s selections type) (hR : R ∈ s.possibleTypes type) {f : FieldDefinition}
    (hf : s.fieldOn? R name = some f) :
    (∀ t, s.find? f.type.baseName = some t → t.isComposite = true → below ≠ []) ∧
      Selection.CompleteAll s below f.type.baseName := by
  induction h generalizing type with
  | field h =>
    have := Selection.completeAll_iff.1 hc _ h
    simp only [Selection.Complete] at this
    exact this R hR f hf
  | @inline _ condition? _ _ _ _ _ _ h ha _ ih =>
    have := Selection.completeAll_iff.1 hc _ h
    simp only [Selection.Complete] at this
    refine ih this ?_ hf
    cases condition? with
    | none => exact hR
    | some t => exact ha t rfl
  | spread _ hfrag ha _ ih => exact ih (hd.fragments _ (List.mem_of_find?_eq_some hfrag)) ha hf

end TypedQuery
