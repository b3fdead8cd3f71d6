/-
Names of emitted items. The registry keeps the names of shapes apart, but the
emitted names are made of them by a conversion, and those of operations never
pass the registry. Where the names of types and of the data of operations are
told apart by the conversion (`NamesApart`), the items have names of their
own (`items_apart`): a shape is named after one of these, perhaps with digits
behind, and the conversion leaves the digits where they are.
-/
import TypedQuery.Proofs.EmittedNames
import TypedQuery.Proofs.Naming

namespace TypedQuery

open Generator

namespace Emission

/-! ## The names of items -/

/-- The name of a structure or an enumeration. -/
def Item.typeName? : Item → Option String
  | .struct _ _ name _ | .enumeration _ _ name _ _ => some name
  | .constant _ _ _ => none

def Item.constantName? : Item → Option String
  | .struct _ _ _ _ | .enumeration _ _ _ _ _ => none
  | .constant _ name _ => some name

def typeNames (items : List Item) : List String := items.filterMap Item.typeName?

def constantNames (items : List Item) : List String := items.filterMap Item.constantName?

/-- Types that every file refers to. -/
def hostTypes : List String := ["Option", "Vec", "Box"]

/-- The name of the structure for the variables of an operation, by the stem of its data's name. -/
def variablesName (stem : String) : String := typeName stem ++ "Variables"

theorem forall₂_of_mapM_ok {ε α β : Type} {f : α → Except ε β} {l : List α} {bs : List β} (h : l.mapM f = .ok bs) :
    List.Forall₂ (fun a b => f a = .ok b) l bs := by
  induction l generalizing bs with
  | nil =>
    cases h
    exact .nil
  | cons a l ih =>
    rw [List.mapM_cons] at h
    obtain ⟨b, hb, h⟩ := bind_eq_ok.1 h
    obtain ⟨more, hmore, h⟩ := bind_eq_ok.1 h
    cases h
    exact .cons hb (ih hmore)

section items

variable {kinds : Kinds} {t : Shape} {op : OperationShape} {item : Item} {its : List Item} {g : Generation}

/-- Every shape becomes one type, named after it. -/
theorem shapeItem_names (h : shapeItem kinds t = .ok item) :
    item.typeName? = some (escapeWord (typeName t.name)) ∧ item.constantName? = none := by
  have hstruct : ∀ {role}, structItem kinds role t = .ok item →
      item.typeName? = some (escapeWord (typeName t.name)) ∧ item.constantName? = none := by
    intro role h
    obtain ⟨i, hi, h⟩ := bind_eq_ok.1 h
    obtain ⟨fs, -, h⟩ := bind_eq_ok.1 h
    cases h
    exact ⟨congrArg some (identifier_eq_ok hi), rfl⟩
  unfold shapeItem at h
  split at h
  next values _ =>
    obtain ⟨i, hi, h⟩ := bind_eq_ok.1 h
    obtain ⟨_, -, h⟩ := bind_eq_ok.1 h
    obtain ⟨_, -, h⟩ := bind_eq_ok.1 h
    cases h
    exact ⟨congrArg some (identifier_eq_ok hi), rfl⟩
  next => exact hstruct h
  next =>
    split at h
    next => exact hstruct h
    next =>
      obtain ⟨i, hi, h⟩ := bind_eq_ok.1 h
      obtain ⟨_, -, h⟩ := bind_eq_ok.1 h
      obtain ⟨_, -, h⟩ := bind_eq_ok.1 h
      cases h
      exact ⟨congrArg some (identifier_eq_ok hi), rfl⟩

/-- Every operation becomes one constant, and a type if it has parameters. -/
theorem operationItems_names (h : operationItems kinds op = .ok its) :
    typeNames its = (if op.parameters.isEmpty then [] else [escapeWord (variablesName (operationStem op.dataType))]) ∧
      constantNames its = [constantStem (operationStem op.dataType) ++ "_" ++ kindSuffix op.kind] := by
  obtain ⟨i, hi, h⟩ := bind_eq_ok.1 h
  rw [identifier_eq_ok hi, escapeWord_constant] at h
  dsimp only at h
  split at h
  next hempty =>
    cases h
    simp [typeNames, constantNames, Item.typeName?, Item.constantName?, hempty]
  next hne =>
    obtain ⟨j, hj, h⟩ := bind_eq_ok.1 h
    obtain ⟨fs, -, h⟩ := bind_eq_ok.1 h
    cases h
    rw [identifier_eq_ok hj, if_neg hne]
    exact ⟨rfl, rfl⟩

theorem typeNames_append (its more : List Item) : typeNames (its ++ more) = typeNames its ++ typeNames more :=
  List.filterMap_append

theorem constantNames_append (its more : List Item) :
    constantNames (its ++ more) = constantNames its ++ constantNames more :=
  List.filterMap_append

theorem shapeItems_names {shapes : List Shape} {types : List Item} (h : shapes.mapM (shapeItem kinds) = .ok types) :
    typeNames types = (shapes.map fun t => typeName t.name).map escapeWord ∧ constantNames types = [] := by
  have hall := forall₂_of_mapM_ok h
  clear h
  induction hall with
  | nil => exact ⟨rfl, rfl⟩
  | cons hitem _ ih =>
    obtain ⟨htype, hconstant⟩ := shapeItem_names hitem
    exact ⟨(List.filterMap_cons_some htype).trans (congrArg _ ih.1), (List.filterMap_cons_none hconstant).trans ih.2⟩

theorem operationsItems_names {ops : List OperationShape} {groups : List (List Item)}
    (h : ops.mapM (operationItems kinds) = .ok groups) :
    typeNames groups.flatten = ((ops.filter fun op => !op.parameters.isEmpty).map
      fun op => variablesName (operationStem op.dataType)).map escapeWord ∧
    constantNames groups.flatten =
      ops.map fun op => constantStem (operationStem op.dataType) ++ "_" ++ kindSuffix op.kind := by
  have hall := forall₂_of_mapM_ok h
  clear h
  induction hall with
  | nil => exact ⟨rfl, rfl⟩
  | @cons op its ops groups hits _ ih =>
    obtain ⟨htypes, hconstants⟩ := operationItems_names hits
    rw [List.flatten_cons, typeNames_append, constantNames_append, htypes, hconstants, ih.1, ih.2, List.filter_cons]
    refine ⟨?_, rfl⟩
    cases op.parameters.isEmpty <;> rfl

/-- The emitted types are those of the shapes, and one for each operation with parameters; the emitted constants are
those of the operations. -/
theorem items_names (h : items g = .ok its) :
    typeNames its = ((g.shapes.map fun t => typeName t.name) ++ (g.operations.filter fun op => !op.parameters.isEmpty).map
      fun op => variablesName (operationStem op.dataType)).map escapeWord ∧
    constantNames its =
      g.operations.map fun op => constantStem (operationStem op.dataType) ++ "_" ++ kindSuffix op.kind := by
  obtain ⟨types, htypes, h⟩ := bind_eq_ok.1 h
  obtain ⟨groups, hgroups, h⟩ := bind_eq_ok.1 h
  cases h
  obtain ⟨hshapes, hnone⟩ := shapeItems_names htypes
  obtain ⟨hvariables, hconstants⟩ := operationsItems_names hgroups
  rw [typeNames_append, constantNames_append, hshapes, hnone, hvariables, hconstants, List.map_append]
  exact ⟨rfl, rfl⟩

end items

end Emission

namespace Schema

open Emission

/-! ## The names of shapes -/

section shapes

variable {s : Schema} {d : Document} {op : Operation} {shape : OperationShape} {used : List String} {p p' : Progress}

/-- Every shape is named, and no two have one name. -/
def NamedApart (s : Schema) (used : List String) (p : Progress) : Prop :=
  s.AllNamed used p.registry ∧ p.registry.names.Nodup

theorem namedApart_start : s.NamedApart used .start :=
  ⟨by simp [AllNamed, Progress.start, Registry.empty], List.nodup_nil⟩

theorem NamedApart.keeps {r : Registry} {t : Shape} (h : s.NamedApart used p) (hk : p.registry.Keeps t r)
    (ht : s.Named used t) {expanding : List String} : s.NamedApart used ⟨r, expanding⟩ :=
  ⟨h.1.keeps hk ht, hk.nodup h.2⟩

/-- Nothing is asked of errors here. -/
theorem judges_any (s : Schema) : s.Judges (fun _ => True) (fun _ _ => True) where
  ordinary := fun _ _ => trivial
  fragment := fun _ _ _ _ _ _ => ⟨fun _ _ => trivial, fun _ _ => trivial⟩
  cyclic := fun _ _ _ _ _ _ => trivial
  declared := fun _ _ _ _ _ _ _ _ _ => trivial
  below := fun _ _ _ _ _ _ _ _ _ _ _ _ => trivial
  split := fun _ _ _ _ _ _ => ⟨fun _ _ => trivial, fun _ _ _ _ _ _ => trivial⟩

theorem allows_namedApart : s.Allows (s.NamedApart used) fun _ => True where
  composite := fun _ _ ht hc hname _ hp => ends_register_none fun _ _ hk =>
    hp.keeps hk (.selected ht hc (by rw [hname]))
  enumeration := fun _ hd _ hp => ends_register_some (fun _ _ _ => trivial) fun _ hk => hp.keeps hk (.enumeration hd)

theorem allowsInputs_namedApart : s.AllowsInputs (s.NamedApart used) fun _ => True where
  ordinary := fun _ _ => trivial
  enumeration := fun _ hd _ hp => ends_register_some (fun _ _ _ => trivial) fun _ hk => hp.keeps hk (.enumeration hd)
  enter := fun _ _ _ _ hp => hp
  input := fun _ _ q _ hd _ hq _ => ends_register_some (fun _ _ _ => trivial) fun _ hk =>
    NamedApart.keeps (p := q) hq hk (.input hd)

/-- An operation that succeeds keeps names apart. -/
theorem operationShapes_namedApart (hused : s.dataName op ∈ used) (hp : s.NamedApart used p)
    (h : Runs (s.operationShapes d op) p shape p') : s.NamedApart used p' := by
  have hregister : ∀ t, Leads (s.NamedApart used) (fun _ => True) (register t (some (s.dataName op)))
      (s.NamedApart used) := fun _ _ hp =>
    ends_register_some (fun _ _ _ => trivial) fun _ hk => hp.keeps hk (.data hused)
  exact (operationShapes_leads (judges_any s) allows_namedApart allowsInputs_namedApart (fun _ _ => trivial)
    hregister (fun _ hp => hp) p hp).2 shape p' h

/-- The name of the data of an operation without its suffix. -/
def stem (s : Schema) (op : Operation) : String :=
  String.ofList (Text.upperCamel (op.name?.getD (s.rootType op.kind)).toList)

/-- What the items of an operation are named after is known before its shapes are made. -/
structure Heads (s : Schema) (op : Operation) (shape : OperationShape) : Prop where
  kind : shape.kind = op.kind
  stem : operationStem shape.dataType = s.stem op
  parameters : shape.parameters.isEmpty = op.parameters.isEmpty

/-- The shape of an object is kept under its explicit name. -/
theorem objectShape_name {resolve : FieldResolver} {o : ObjectDefinition} {selections : List Expanded}
    {name n : String} (h : Runs (s.objectShape resolve o selections (some name)) p n p') : n = name := by
  unfold objectShape at h
  extract_lets rest at h
  split at h
  next =>
    obtain ⟨_, _, hthrow, -⟩ := runs_bind.1 h
    exact absurd hthrow runs_throw
  next =>
    obtain ⟨qs, p₁, -, hregister⟩ := runs_bind.1 h
    rcases (register_runs hregister).2 with hname | ⟨hnone, -⟩
    · exact (Option.some.inj hname).symm
    · cases hnone

theorem variableProperties_length {parameters : List VariableDefinition} {qs : List Property}
    (h : Runs (s.variableProperties parameters) p qs p') : qs.length = parameters.length := by
  have hgrows : ∀ v : VariableDefinition, Grows (do
      let t ← s.inputType s.types.length v.type (.variable v.name)
      return (⟨v.name, v.name, if v.hasDefault then t.intoNullable else t, none⟩ : Property)) :=
    fun v => (inputType_grows _ _ _).bind fun _ => grows_pure
  exact (runs_mapM (I := fun _ => True) (Q := fun _ _ _ => True) (fun _ _ => trivial)
    (fun v _ _ _ _ _ hv => ⟨trivial, (hgrows v).runs hv, trivial⟩) trivial h).2.2.length_eq.symm

theorem operationShapes_heads (h : Runs (s.operationShapes d op) p shape p') : s.Heads op shape := by
  obtain ⟨_, _, -, h⟩ := runs_bind.1 h
  obtain ⟨t, _, -, h⟩ := runs_bind.1 h
  cases t with
  | object root =>
    obtain ⟨dataType, _, hobject, h⟩ := runs_bind.1 h
    obtain ⟨parameters, _, hparameters, hpure⟩ := runs_bind.1 h
    obtain ⟨rfl, -⟩ := runs_pure.1 hpure
    refine ⟨rfl, (congrArg operationStem (objectShape_name hobject)).trans (operationStem_data _), ?_⟩
    rw [Bool.eq_iff_iff, List.isEmpty_iff_length_eq_zero, List.isEmpty_iff_length_eq_zero,
      variableProperties_length hparameters]
  | scalar | enumeration | interface | union | input => exact absurd h runs_throw

/-- A generation is a run over all operations, with the shapes that are registered at its end. -/
theorem generate_eq_ok {g : Generation} (h : s.generate d = .ok g) :
    ∃ p, Runs (d.operations.mapM (s.generateOperation d)) .start g.operations p ∧ g.shapes = p.registry.shapes := by
  unfold generate at h
  rcases hrun : outcome (d.operations.mapM (s.generateOperation d)) .start with ⟨e | operations, p⟩
  · rw [show (d.operations.mapM (s.generateOperation d)).run .start = _ from hrun] at h
    cases h
  · rw [show (d.operations.mapM (s.generateOperation d)).run .start = _ from hrun] at h
    cases h
    exact ⟨p, hrun, rfl⟩

/-- The shapes of a generation are named and have names of their own, and its operations are those of the document. -/
theorem generate_namedApart {g : Generation} (h : s.generate d = .ok g) :
    (∀ t ∈ g.shapes, s.Named (d.operations.map s.dataName) t) ∧ (g.shapes.map (·.name)).Nodup ∧
      List.Forall₂ s.Heads d.operations g.operations := by
  obtain ⟨p, hrun, hshapes⟩ := generate_eq_ok h
  have hstep : ∀ op ∈ d.operations, ∀ {p shape p'}, s.NamedApart (d.operations.map s.dataName) p →
      Runs (s.generateOperation d op) p shape p' →
      s.NamedApart (d.operations.map s.dataName) p' ∧ p.Grows p' ∧ s.Heads op shape := by
    intro op hop p shape p' hp hr
    have hoperation := generateOperation_runs.1 hr
    exact ⟨operationShapes_namedApart (List.mem_map_of_mem hop) hp hoperation,
      (operationShapes_grows d op).runs hoperation, operationShapes_heads hoperation⟩
  obtain ⟨hnamed, -, hheads⟩ := runs_mapM (Q := fun _ => s.Heads) (fun _ hq => hq) hstep namedApart_start hrun
  rw [hshapes]
  exact ⟨hnamed.1, hnamed.2, hheads⟩

/-- A generation whose file is emitted, by the names of the types in it. -/
theorem exists_emitted {s : Schema} {d : Document} {g : Generation} {names : List String} (hg : s.generate d = .ok g)
    (hnames : (items g).toOption.map typeNames = some names) :
    ∃ g its, s.generate d = .ok g ∧ items g = .ok its ∧ typeNames its = names := by
  obtain ⟨its, hits, hnames⟩ := Option.map_eq_some_iff.1 hnames
  cases hitems : items g with
  | error e => simp [hitems, Except.toOption] at hits
  | ok its' =>
    obtain rfl : its' = its := by simpa [hitems, Except.toOption] using hits
    exact ⟨g, its', hg, hitems, hnames⟩

end shapes

/-! ## Names apart -/

/-- The names that shapes are named after: of types that are no scalars, and of the data of operations. -/
def sourceNames (s : Schema) (d : Document) : List String :=
  (s.types.filter fun t => t.kind ≠ .scalar).map (·.name) ++ d.operations.map s.dataName

/-- The names of the structures for variables. -/
def variablesNames (s : Schema) (d : Document) : List String :=
  (d.operations.filter fun op => !op.parameters.isEmpty).map fun op => variablesName (s.stem op)

/-- The conversion of names keeps those apart that items are named after. The names of shapes are GraphQL names, none
of them becomes the name of a host type, and no two become the same; one becomes what another of a composite type does
with digits behind it only if it is that other with these digits. The names that operations add differ from all of
these and from each other. -/
structure NamesApart (s : Schema) (d : Document) : Prop where
  isName : ∀ n ∈ s.sourceNames d, TypedQuery.isName n = true
  host : ∀ n ∈ s.sourceNames d, typeName n ∉ hostTypes
  apart : ∀ m ∈ s.sourceNames d, ∀ n ∈ s.sourceNames d, typeName m = typeName n → m = n
  numbered : ∀ m ∈ s.sourceNames d, ∀ t ∈ s.types, t.isComposite = true →
    ∀ digits : String, (∀ c ∈ digits.toList, c.isDigit = true) →
      typeName m = typeName t.name ++ digits → m = t.name ++ digits
  parameters : (s.variablesNames d).Nodup
  parametersApart : ∀ n ∈ s.sourceNames d, typeName n ∉ s.variablesNames d
  constants : (d.operations.map fun op => (constantStem (s.stem op), op.kind)).Nodup

/-- A name that shapes are named after, and the digits behind it in the name of a shape. Only composite types have
shapes with digits. -/
structure Source (s : Schema) (d : Document) (n digits : String) : Prop where
  mem : n ∈ s.sourceNames d
  numeral : ∀ c ∈ digits.toList, c.isDigit = true
  composite : digits = "" ∨ ∃ t ∈ s.types, t.isComposite = true ∧ t.name = n

section apart

variable {s : Schema} {d : Document}

theorem source_plain {n : String} (h : n ∈ s.sourceNames d) : s.Source d n "" := ⟨h, by simp, .inl rfl⟩

theorem mem_sourceNames {name : String} {c : TypeDefinition} (hc : s.find? name = some c) (hkind : c.kind ≠ .scalar) :
    name ∈ s.sourceNames d := by
  have hmem : c ∈ s.types.filter fun t => t.kind ≠ .scalar := List.mem_filter.2 ⟨mem_of_find? hc, by simpa using hkind⟩
  exact List.mem_append_left _ (find?_name hc ▸ List.mem_map_of_mem hmem)

/-- A shape is named after a type or the data of an operation. -/
theorem Named.source {t : Shape} (h : s.Named (d.operations.map s.dataName) t) :
    ∃ n digits, s.Source d n digits ∧ t.name = n ++ digits := by
  cases h with
  | enumeration h => exact ⟨_, "", source_plain (mem_sourceNames h (by simp [TypeDefinition.kind])), by simp; rfl⟩
  | input h => exact ⟨_, "", source_plain (mem_sourceNames h (by simp [TypeDefinition.kind])), by simp⟩
  | @selected _ c k h hc hn =>
    obtain ⟨digits, hdigits, hcandidate⟩ := Registry.candidate_digits t.schemaType k
    refine ⟨_, digits, ⟨mem_sourceNames h ?_, hdigits, .inr ⟨c, mem_of_find? h, hc, find?_name h⟩⟩, hn.trans hcandidate⟩
    rintro hscalar
    cases c <;> cases hc <;> cases hscalar
  | data h => exact ⟨_, "", source_plain (List.mem_append_right _ h), by simp⟩

theorem NamesApart.typeName_source (h : s.NamesApart d) {n digits : String} (hn : s.Source d n digits) :
    typeName (n ++ digits) = typeName n ++ digits :=
  typeName_digits (h.isName n hn.mem) hn.numeral

/-- The conversion tells the names of shapes apart. -/
theorem NamesApart.injective (h : s.NamesApart d) {m n ds es : String} (hm : s.Source d m ds) (hn : s.Source d n es)
    (heq : typeName (m ++ ds) = typeName (n ++ es)) : m ++ ds = n ++ es := by
  -- of two equal texts that end in digits, the one with more digits begins with what the other has in front of them
  have hlonger : ∀ {m n ds es : String} {more : List Char}, s.Source d m ds → s.Source d n es →
      (typeName m).toList = (typeName n).toList ++ more → es.toList = more ++ ds.toList → m ++ ds = n ++ es := by
    intro m n ds es more hm hn hname hdigits
    obtain rfl : es = String.ofList more ++ ds := String.toList_injective (by simpa using hdigits)
    have hname' : typeName m = typeName n ++ String.ofList more := String.toList_injective (by simpa using hname)
    rcases hn.composite with hnone | ⟨t, ht, hcomposite, rfl⟩
    · obtain ⟨hmore, rfl⟩ := String.append_eq_empty_iff.1 hnone
      rw [hmore, String.append_empty] at hname'
      simp [h.apart m hm.mem n hn.mem hname', hmore]
    · have hmore : ∀ c ∈ (String.ofList more).toList, c.isDigit = true := by
        intro c hc
        exact hn.numeral c (String.toList_append ▸ List.mem_append_left _ hc)
      rw [h.numbered m hm.mem t ht hcomposite _ hmore hname', String.append_assoc]
  rw [h.typeName_source hm, h.typeName_source hn] at heq
  have hchars := congrArg String.toList heq
  rw [String.toList_append, String.toList_append, List.append_eq_append_iff] at hchars
  rcases hchars with ⟨more, hname, hdigits⟩ | ⟨more, hname, hdigits⟩
  · exact (hlonger hn hm hname hdigits).symm
  · exact hlonger hm hn hname hdigits

theorem variablesNames_eq {ops : List Operation} {shapes : List OperationShape} (h : List.Forall₂ s.Heads ops shapes) :
    ((shapes.filter fun op => !op.parameters.isEmpty).map fun op => variablesName (operationStem op.dataType)) =
      (ops.filter fun op => !op.parameters.isEmpty).map fun op => variablesName (s.stem op) := by
  induction h with
  | nil => rfl
  | cons hhead _ ih =>
    rw [List.filter_cons, List.filter_cons, hhead.parameters]
    split
    next => rw [List.map_cons, List.map_cons, ih, hhead.stem]
    next => exact ih

theorem constants_eq {ops : List Operation} {shapes : List OperationShape} (h : List.Forall₂ s.Heads ops shapes) :
    (shapes.map fun op => (constantStem (operationStem op.dataType), op.kind)) =
      ops.map fun op => (constantStem (s.stem op), op.kind) := by
  induction h with
  | nil => rfl
  | cons hhead _ ih => rw [List.map_cons, List.map_cons, ih, hhead.stem, hhead.kind]

/-- A name that ends in no digit has none behind it. -/
theorem eq_of_append_digits {n digits w : String} (hdigits : ∀ c ∈ digits.toList, c.isDigit = true)
    (hw : w.toList.getLast?.any Char.isDigit = false) (h : n ++ digits = w) : n = w := by
  rcases List.eq_nil_or_concat digits.toList with hnil | ⟨front, c, hlast⟩
  · rw [← h, String.toList_eq_nil_iff.1 hnil, String.append_empty]
  · have hc : c.isDigit = true := hdigits c (by simp [hlast])
    rw [← h, String.toList_append, hlast] at hw
    simp [hc] at hw

/-- The names of types before they are escaped. -/
def plainNames (s : Schema) (d : Document) (shapes : List Shape) : List String :=
  (shapes.map fun t => typeName t.name) ++ s.variablesNames d

section plain

variable {shapes : List Shape} (h : s.NamesApart d) (hnamed : ∀ t ∈ shapes, s.Named (d.operations.map s.dataName) t)

include h

theorem NamesApart.isNameContinue_of_mem_stem {op : Operation} (hop : op ∈ d.operations) :
    ∀ c ∈ (s.stem op).toList, isNameContinue c = true := by
  have hdata := isNameContinue_of_isName (h.isName _ (List.mem_append_right _ (List.mem_map_of_mem hop)))
  rw [dataName, Operation.dataTypeName, String.toList_append] at hdata
  exact fun c hc => hdata c (List.mem_append_left _ hc)

include hnamed

theorem NamesApart.isAlphanum_of_mem_plainNames :
    ∀ w ∈ s.plainNames d shapes, ∀ c ∈ w.toList, c.isAlphanum = true := by
  refine List.forall_mem_append.2 ⟨List.forall_mem_map.2 fun t ht => ?_, List.forall_mem_map.2 fun op hop => ?_⟩
  · obtain ⟨n, digits, hn, hname⟩ := (hnamed t ht).source
    refine isAlphanum_of_mem_typeName ?_
    rw [hname, String.toList_append, List.forall_mem_append]
    refine ⟨isNameContinue_of_isName (h.isName n hn.mem), fun c hc => ?_⟩
    simp [isNameContinue, Text.isAlphanum_of_isDigit (hn.numeral c hc)]
  · have hstem := h.isNameContinue_of_mem_stem (List.mem_of_mem_filter hop)
    rw [variablesName, String.toList_append]
    exact List.forall_mem_append.2 ⟨isAlphanum_of_mem_typeName hstem, by simp⟩

/-- The name of a shape ends in a digit, or is that of a type or of the data of an operation. -/
theorem NamesApart.source_of_typeName {t : Shape} (ht : t ∈ shapes) {w : String} (hname : typeName t.name = w)
    (hw : w.toList.getLast?.any Char.isDigit = false) : ∃ n ∈ s.sourceNames d, typeName n = w := by
  obtain ⟨n, digits, hn, hsource⟩ := (hnamed t ht).source
  rw [hsource, h.typeName_source hn] at hname
  exact ⟨n, hn.mem, eq_of_append_digits hn.numeral hw hname⟩

theorem NamesApart.plainNames_nodup (hdistinct : (shapes.map (·.name)).Nodup) : (s.plainNames d shapes).Nodup := by
  refine List.Nodup.append ?_ h.parameters ?_
  · rw [show (fun t : Shape => typeName t.name) = typeName ∘ (·.name) from rfl, ← List.map_map]
    refine hdistinct.map_on fun m hm n hn heq => ?_
    obtain ⟨t, ht, rfl⟩ := List.mem_map.1 hm
    obtain ⟨u, hu, rfl⟩ := List.mem_map.1 hn
    obtain ⟨m, ds, hm, htname⟩ := (hnamed t ht).source
    obtain ⟨n, es, hn, huname⟩ := (hnamed u hu).source
    rw [htname, huname] at heq ⊢
    exact h.injective hm hn heq
  · intro w hshape hvariables
    obtain ⟨t, ht, hname⟩ := List.mem_map.1 hshape
    obtain ⟨op, -, hop⟩ := List.mem_map.1 hvariables
    have hlast : w.toList.getLast?.any Char.isDigit = false := by simp [← hop, variablesName]
    obtain ⟨n, hn, rfl⟩ := h.source_of_typeName hnamed ht hname hlast
    exact h.parametersApart n hn hvariables

theorem NamesApart.plainNames_host : ∀ w ∈ s.plainNames d shapes, w ∉ hostTypes := by
  have hlast : ∀ w ∈ hostTypes, w.toList.getLast?.any Char.isDigit = false ∧ w.toList.getLast? ≠ some 's' := by decide
  refine List.forall_mem_append.2 ⟨List.forall_mem_map.2 fun t ht hhost => ?_, fun v hv hhost => ?_⟩
  · obtain ⟨n, hn, hname⟩ := h.source_of_typeName hnamed ht rfl (hlast _ hhost).1
    exact h.host n hn (hname ▸ hhost)
  · obtain ⟨op, -, rfl⟩ := List.mem_map.1 hv
    exact (hlast _ hhost).2 (by simp [variablesName])

end plain

/-- **Emitted items never clash** where the conversion of names keeps apart what items are named after: there is one
type for each shape and each operation with parameters, and one constant for each operation; the types have names of
their own, none of them the name of a type that every file refers to, and so have the constants. -/
theorem items_apart {g : Generation} {its : List Item} (h : s.NamesApart d) (hg : s.generate d = .ok g)
    (hits : items g = .ok its) :
    (typeNames its).length = g.shapes.length + (g.operations.filter fun op => !op.parameters.isEmpty).length ∧
      (typeNames its).Nodup ∧ (∀ n ∈ typeNames its, n ∉ hostTypes) ∧
      (constantNames its).length = g.operations.length ∧ (constantNames its).Nodup := by
  obtain ⟨hnamed, hdistinct, hheads⟩ := generate_namedApart hg
  obtain ⟨htypeNames, hconstantNames⟩ := items_names hits
  have hcount : (typeNames its).length =
      g.shapes.length + (g.operations.filter fun op => !op.parameters.isEmpty).length := by
    simp [htypeNames]
  have htypes : typeNames its = (s.plainNames d g.shapes).map escapeWord := by
    rw [htypeNames, variablesNames_eq hheads]
    rfl
  have hplain := h.isAlphanum_of_mem_plainNames hnamed
  refine ⟨hcount, ?_, ?_, by simp [hconstantNames], ?_⟩
  · rw [htypes]
    exact (h.plainNames_nodup hnamed hdistinct).map_on fun a ha b hb => escapeWord_injective (hplain a ha) (hplain b hb)
  · rw [htypes]
    refine List.forall_mem_map.2 fun w hw hhost => ?_
    have hself : ∀ n ∈ hostTypes, escapeWord n = n ∧ n.toList.all Char.isAlphanum = true := by decide
    obtain ⟨hescape, halpha⟩ := hself _ hhost
    have hsame : w = escapeWord w :=
      escapeWord_injective (hplain w hw) (List.all_eq_true.1 halpha) hescape.symm
    exact h.plainNames_host hnamed w hw (hsame ▸ hhost)
  · have hconstants : constantNames its = (g.operations.map fun op =>
        (constantStem (operationStem op.dataType), op.kind)).map fun c => c.1 ++ "_" ++ kindSuffix c.2 := by
      rw [hconstantNames, List.map_map]
      rfl
    rw [hconstants, constants_eq hheads]
    exact h.constants.map fun a b hab => Prod.ext (constant_injective hab).1 (constant_injective hab).2

end apart

/-! The users selected in two ways get the shapes `HTTPUser` and `HTTPUser2`, so those of the type that is called
`HTTPUser2` give way to it. -/

def directory : Schema where
  types := [
    .scalar ⟨"Int", none⟩,
    .object ⟨"HTTPUser", none, [], [⟨"id", .named "Int", none⟩, ⟨"name", .named "Int", none⟩]⟩,
    .object ⟨"HTTPUser2", none, [], [⟨"id", .named "Int", none⟩]⟩,
    .input ⟨"Filter_by", none, [⟨"max", .named "Int", none⟩]⟩,
    .object ⟨"Query", none, [], [⟨"user", .named "HTTPUser", none⟩, ⟨"old", .named "HTTPUser2", none⟩]⟩]
  roots := {}
  scalars := .default

def directoryDocument : Document where
  operations := [
    ⟨some "find", .query, [⟨"by", .named "Filter_by", false⟩], [
      .field (some "a") "user" false [.field none "id" false []],
      .field (some "b") "user" false [.field none "name" false []],
      .field none "old" false [.field none "id" false []]],
      "query find($by: Filter_by) \x7b a: user \x7b id \x7d b: user \x7b name \x7d old \x7b id \x7d \x7d"⟩,
    ⟨some "count", .query, [], [.field none "user" false [.field none "id" false []]],
      "query count \x7b user \x7b id \x7d \x7d"⟩]
  fragments := []

theorem directory_apart : directory.NamesApart directoryDocument ∧
    ∃ g its, directory.generate directoryDocument = .ok g ∧ items g = .ok its ∧
      (typeNames its).length = g.shapes.length + (g.operations.filter fun op => !op.parameters.isEmpty).length ∧
      (typeNames its).Nodup ∧ (∀ n ∈ typeNames its, n ∉ hostTypes) ∧
      (constantNames its).length = g.operations.length ∧ (constantNames its).Nodup := by
  have hnumbered : ∀ m ∈ directory.sourceNames directoryDocument, ∀ t ∈ directory.types, t.isComposite = true →
      (typeName t.name).toList.isPrefixOf (typeName m).toList = true →
      m.toList = t.name.toList ++ (typeName m).toList.drop (typeName t.name).toList.length := by decide +kernel
  have hapart : directory.NamesApart directoryDocument := by
    refine ⟨by decide +kernel, by decide +kernel, by decide +kernel, fun m hm t ht hcomposite digits _ hname => ?_,
      by decide +kernel, by decide +kernel, by decide +kernel⟩
    have hchars : (typeName m).toList = (typeName t.name).toList ++ digits.toList := by
      rw [hname, String.toList_append]
    have hm := hnumbered m hm t ht hcomposite (by simp [hchars, List.isPrefixOf_iff_prefix])
    exact String.toList_injective (by rw [hm, hchars, List.drop_left, String.toList_append])
  obtain ⟨g, its, hg, hits, -⟩ : ∃ g its, directory.generate directoryDocument = .ok g ∧ items g = .ok its ∧
      typeNames its = ["HttpUser", "HttpUser2", "HttpUser22", "FindData", "FilterBy", "CountData", "FindVariables"] :=
    exists_emitted (by cbv) (by decide +kernel)
  exact ⟨hapart, g, its, hg, hits, items_apart hapart hg hits⟩

/-! Two types that are told apart by an underscore. -/

def snaked : Schema where
  types := [
    .scalar ⟨"Int", none⟩,
    .object ⟨"Foo_Bar", none, [], [⟨"a", .named "Int", none⟩]⟩,
    .object ⟨"FooBar", none, [], [⟨"b", .named "Int", none⟩]⟩,
    .object ⟨"Query", none, [], [⟨"x", .named "Foo_Bar", none⟩, ⟨"y", .named "FooBar", none⟩]⟩]
  roots := {}
  scalars := .default

def snakedDocument : Document where
  operations := [⟨none, .query, [], [
    .field none "x" false [.field none "a" false []],
    .field none "y" false [.field none "b" false []]],
    "\x7b x \x7b a \x7d y \x7b b \x7d \x7d"⟩]
  fragments := []

/-- The underscore does not reach the emitted file: both shapes become `FooBar`. -/
theorem snaked_clash : ∃ g its, snaked.generate snakedDocument = .ok g ∧ items g = .ok its ∧
    ¬ (typeNames its).Nodup := by
  obtain ⟨g, its, hg, hits, hnames⟩ : ∃ g its, snaked.generate snakedDocument = .ok g ∧ items g = .ok its ∧
      typeNames its = ["FooBar", "FooBar", "QueryData"] := exists_emitted (by cbv) (by decide +kernel)
  exact ⟨g, its, hg, hits, by simp [hnames]⟩

end Schema

end TypedQuery
