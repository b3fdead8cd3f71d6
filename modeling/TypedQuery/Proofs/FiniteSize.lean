/-
Types of finite size. An output shape refers only to shapes that were
registered before it, none of them an input object (`Registry.Layered`). An
input object holds another only behind a list or in a box, and everything else
by value, as a word of its text outside of `Vec` and `Box`
(`mem_words_of_mentions`). So what a type holds by value comes before it in one
order of all types (`rank_lt`), and no type contains itself
(`no_type_contains_itself`).
-/
import TypedQuery.Proofs.Integrity
import TypedQuery.Proofs.TypeTexts
import TypedQuery.Proofs.WireNames

namespace TypedQuery

open Generator

namespace Registry

variable {r r' : Registry} {t : Shape} {n : String}

/-- `n` is registered, for something that is no input object. -/
def Yields (r : Registry) (n : String) : Prop := ∃ t, r.lookup? n = some t ∧ t.kind ≠ .inputObject

/-- Output shapes refer to earlier shapes only, and to no input object. -/
def Layered (r : Registry) : Prop :=
  ∀ pre shape post, r.shapes = pre ++ shape :: post → shape.kind.isOutput = true → ∀ n, shape.Uses n → Yields ⟨pre⟩ n

theorem Yields.extends (h : r.Yields n) (hext : r'.Extends r) : r'.Yields n := by
  obtain ⟨t, hl, hkind⟩ := h
  exact ⟨t, hext.lookup? hl, hkind⟩

theorem Layered.keeps (h : r.Layered) (hk : r.Keeps t r')
    (ht : t.kind.isOutput = true → ∀ n, t.Uses n → r.Yields n) : r'.Layered :=
  hk.each (P := fun r shape => shape.kind.isOutput = true → ∀ n, shape.Uses n → r.Yields n) h ht

end Registry

/-! ## Layers of a run -/

namespace Schema

variable {s : Schema} {d : Document} {p p' : Progress}

/-- What runs preserve: the registry is layered. -/
def KeptLayered (p : Progress) : Prop := p.registry.Layered

/-- A generated base of a field's type is no input object. -/
def FieldYields (r : Registry) (_ : FieldDefinition) (_ : List Expanded) (t : PropertyType) : Prop :=
  ∀ n, t.base = .generated n → r.Yields n

theorem fieldYields_mono ⦃r r' : Registry⦄ ⦃f : FieldDefinition⦄ ⦃selections : List Expanded⦄ ⦃t : PropertyType⦄
    (hext : r'.Extends r) (h : FieldYields r f selections t) : FieldYields r' f selections t :=
  fun n hn => (h n hn).extends hext

theorem keptLayered_register {shape : Shape} {name? : Option String} {n : String} (hI : KeptLayered p)
    (h : Runs (register shape name?) p n p') (hkind : shape.kind ≠ .inputObject)
    (huses : shape.kind.isOutput = true → ∀ m, shape.Uses m → p.registry.Yields m) :
    KeptLayered p' ∧ p.Grows p' ∧ p'.registry.Yields n :=
  ⟨hI.keeps (register_runs h).1 huses, (register_grows _ _).runs h, _, (register_runs h).1.held, hkind⟩

theorem uses_of_isProperty {r : Registry} {fields : List FieldDefinition} {collected : List CollectedField}
    {qs : List Property} (h : List.Forall₂ (s.IsProperty fields (FieldYields r)) collected qs) {q : Property}
    (hq : q ∈ qs) {n : String} (hn : q.type.base = .generated n) : r.Yields n := by
  obtain ⟨f, -, _, t, -, hyields, rfl⟩ := exists_of_forall₂_right h hq
  refine hyields n ?_
  dsimp only at hn
  split at hn
  · rwa [base_intoNullable] at hn
  · exact hn

theorem objectShape_layered {resolve : FieldResolver} (hres : Establishes KeptLayered FieldYields resolve)
    {name? : Option String} {o : ObjectDefinition} {selections : List Expanded} {n : String} (hI : KeptLayered p)
    (h : Runs (s.objectShape resolve o selections name?) p n p') :
    KeptLayered p' ∧ p.Grows p' ∧ p'.registry.Yields n := by
  obtain ⟨-, collected, qs, p₁, -, hI₁, hg₁, hall, hreg⟩ := objectShape_runs fieldYields_mono hres hI h
  obtain ⟨hI', hg', hyields⟩ := keptLayered_register hI₁ hreg (by simp) (by
    rintro - m (⟨q, hq, hm⟩ | ⟨v, hv, -⟩)
    · exact uses_of_isProperty hall hq hm
    · simp [Shape.variants] at hv)
  exact ⟨hI', hg₁.trans hg', hyields⟩

theorem abstractShape_layered {resolve : FieldResolver} (hres : Establishes KeptLayered FieldYields resolve)
    {site : TypeDefinition} {name? : Option String} {selections : List Expanded} {n : String} (hI : KeptLayered p)
    (h : Runs (s.abstractShape resolve site selections name?) p n p') :
    KeptLayered p' ∧ p.Grows p' ∧ p'.registry.Yields n := by
  obtain ⟨-, common, branches, collected, qs, vs, p₁, -, -, hI₁, hg₁, hall, hvs, hreg⟩ :=
    abstractShape_runs (Q := fun r _ _ n => r.Yields n) fieldYields_mono (fun _ _ _ _ _ hext h => h.extends hext) hres
      (fun _ _ _ _ _ _ hI h => objectShape_layered hres hI h) hI h
  have hkind : abstractKind site.kind vs ≠ .inputObject := by
    unfold abstractKind
    split <;> simp
  obtain ⟨hI', hg', hyields⟩ := keptLayered_register hI₁ hreg hkind (by
    rintro - m (⟨q, hq, hm⟩ | ⟨v, hv, rfl⟩)
    · exact uses_of_isProperty hall hq hm
    · rw [variants_of_abstractKind site.kind vs rfl] at hv
      rcases hvs with ⟨-, rfl⟩ | ⟨-, hvs⟩
      · cases hv
      · obtain ⟨-, -, -, -, -, hyields⟩ := hvs.made v hv
        exact hyields)
  exact ⟨hI', hg₁.trans hg', hyields⟩

theorem enumShape_layered {d : EnumDefinition} {n : String} (hI : KeptLayered p) (h : Runs (enumShape d) p n p') :
    KeptLayered p' ∧ p.Grows p' ∧ p'.registry.Yields n :=
  keptLayered_register hI h (by simp [EnumDefinition.shape]) (by simp [EnumDefinition.shape, ShapeKind.isOutput])

/-- One more level of fields keeps registries layered: a field of an input object's type is refused. -/
theorem fieldTypeOver_layered {resolve : FieldResolver} (hres : Establishes KeptLayered FieldYields resolve) :
    Establishes KeptLayered FieldYields (s.fieldTypeOver resolve) := by
  intro f selections p t p' hI h
  obtain ⟨base, hbase, rfl⟩ := fieldTypeOver_runs h
  unfold FieldYields
  rw [base_ofTypeRef]
  have hgenerated : ∀ {m}, KeptLayered p' ∧ p.Grows p' ∧ p'.registry.Yields m →
      KeptLayered p' ∧ p.Grows p' ∧ ∀ n, BaseType.generated m = .generated n → p'.registry.Yields n := by
    rintro m ⟨hI', hg, hyields⟩
    refine ⟨hI', hg, ?_⟩
    rintro n ⟨⟩
    exact hyields
  cases hbase with
  | scalar _ => exact ⟨hI, .refl _, fun n hn => nomatch hn⟩
  | enumeration _ hr => exact hgenerated (enumShape_layered hI hr)
  | object _ hr => exact hgenerated (objectShape_layered hres hI hr)
  | abstract _ _ hr => exact hgenerated (abstractShape_layered hres hI hr)

theorem fieldType_layered (levels : Nat) : Establishes KeptLayered FieldYields (s.fieldType levels) :=
  fieldType_induct (P := Establishes KeptLayered FieldYields) (fun _ _ _ _ _ _ h => absurd h runs_throw)
    (fun _ => fieldTypeOver_layered) levels

/-- Nothing is asked of enums and input objects. -/
theorem allowsInputs_keptLayered : s.AllowsInputs KeptLayered fun _ => True where
  ordinary := fun _ _ => trivial
  enumeration := fun _ _ _ hp => ends_register_some (fun _ _ _ => trivial) fun _ hk =>
    Registry.Layered.keeps hp hk (by simp [EnumDefinition.shape, ShapeKind.isOutput])
  enter := fun _ _ _ _ hp => hp
  input := fun _ _ _ _ _ _ hq _ => ends_register_some (fun _ _ _ => trivial) fun _ hk =>
    Registry.Layered.keeps hq hk (by simp [ShapeKind.isOutput])

theorem operationShapes_layered {op : Operation} {shape : OperationShape} (hI : KeptLayered p)
    (h : Runs (s.operationShapes d op) p shape p') : KeptLayered p' := by
  obtain ⟨-, root, p₁, -, hdata, hvars⟩ := operationShapes_runs h
  have hI₁ := (objectShape_layered (fieldType_layered _) hI hdata).1
  exact (variableProperties_leads allowsInputs_keptLayered _ p₁ hI₁).2 _ _ hvars

/-- The shapes of a generation are layered and have reference integrity. -/
theorem generate_layered {g : Generation} (h : s.generate d = .ok g) :
    (⟨g.shapes⟩ : Registry).Layered ∧ (⟨g.shapes⟩ : Registry).Integrity s := by
  obtain ⟨p, hrun, hshapes⟩ := generate_eq_ok h
  have hstep : ∀ op ∈ d.operations, ∀ {p shape p'}, (KeptLayered p ∧ s.KeptSound p ∧ p.expanding = []) →
      Runs (s.generateOperation d op) p shape p' →
      (KeptLayered p' ∧ s.KeptSound p' ∧ p'.expanding = []) ∧ p.Grows p' ∧ True := by
    intro op _ p shape p' ⟨hlayered, hsound, hexpanding⟩ hr
    have hoperation := generateOperation_runs.1 hr
    obtain ⟨hsound', hexpanding', -⟩ := operationShapes_sound hsound hexpanding hoperation
    exact ⟨⟨operationShapes_layered hlayered hoperation, hsound', hexpanding'⟩,
      (operationShapes_grows d op).runs hoperation, trivial⟩
  have hstart : KeptLayered .start := fun pre shape post h => by simp [Progress.start, Registry.empty] at h
  obtain ⟨⟨hlayered, hsound, hexpanding⟩, -⟩ := runs_mapM (Q := fun _ _ _ => True) (fun _ hq => hq) hstep
    ⟨hstart, s.keptSound_start⟩ hrun
  rw [hshapes]
  unfold KeptSound at hsound
  exact ⟨hlayered, (hexpanding ▸ hsound).integrity⟩

end Schema

/-! ## What emitted types hold by value -/

namespace Emission

/-- The words in the text of a layout. -/
def Layout.words (l : Layout) : List String :=
  (l.flat.toList.splitOnP fun c => !Text.isIdentifierContinue c).map String.ofList

/-- The type mentions `name` outside of lists and boxes. -/
def FieldType.Mentions (name : String) : FieldType → Prop
  | .host type => name ∈ type.words
  | .item n => name = n
  | .boxed _ => name = "Box"
  | .list _ => name = "Vec"
  | .option t => name = "Option" ∨ t.Mentions name

/-- The item has a field or a variant of a type that mentions `name` outside of lists and boxes. -/
def Item.Mentions (name : String) : Item → Prop
  | .struct _ _ _ fields => ∃ f ∈ fields, f.type.Mentions name
  | .enumeration _ _ _ variants _ => ∃ v ∈ variants, v.content? = some name
  | .constant _ _ _ => False

instance decidableMentions (name : String) : (t : FieldType) → Decidable (t.Mentions name)
  | .host type => inferInstanceAs (Decidable (name ∈ type.words))
  | .item n => inferInstanceAs (Decidable (name = n))
  | .boxed _ => inferInstanceAs (Decidable (name = "Box"))
  | .list _ => inferInstanceAs (Decidable (name = "Vec"))
  | .option t =>
    have := decidableMentions name t
    inferInstanceAs (Decidable (name = "Option" ∨ t.Mentions name))

instance (name : String) : (item : Item) → Decidable (item.Mentions name)
  | .struct _ _ _ fields => inferInstanceAs (Decidable (∃ f ∈ fields, f.type.Mentions name))
  | .enumeration _ _ _ variants _ => inferInstanceAs (Decidable (∃ v ∈ variants, v.content? = some name))
  | .constant _ _ _ => inferInstanceAs (Decidable False)

section words

variable {t : FieldType} {l inner : Layout} {n : String}

theorem not_continue_eq_false {s : String} (h : s.toList.all Text.isIdentifierContinue = true) :
    ∀ c ∈ s.toList, (!Text.isIdentifierContinue c) = false :=
  fun c hc => by rw [List.all_eq_true.1 h c hc, Bool.not_true]

/-- A word in front of an angle bracket is the first of a text, and the empty word behind the closing one its last. -/
theorem words_enclosed {front : String} (hfront : front.toList.all Text.isIdentifierContinue = true)
    (hflat : l.flat = front ++ "<" ++ inner.flat ++ ">") : l.words = front :: inner.words ++ [""] := by
  have hchars : l.flat.toList = front.toList ++ '<' :: (inner.flat.toList ++ '>' :: []) := by simp [hflat]
  rw [Layout.words, hchars, List.splitOnP_append_cons_of_forall_mem (not_continue_eq_false hfront) '<' (by decide),
    List.splitOnP_append_cons _ _ (by decide)]
  simp [Layout.words]

theorem words_boxed : t.boxed.layout.words = "Box" :: t.layout.words ++ [""] := words_enclosed rfl (flat_boxed t)

theorem words_list : t.list.layout.words = "Vec" :: t.layout.words ++ [""] := words_enclosed rfl (flat_list t)

theorem words_option : t.option.layout.words = "Option" :: t.layout.words ++ [""] :=
  words_enclosed rfl (flat_option t)

/-- What a type mentions is a word of its text. -/
theorem mem_words_of_mentions (h : t.Mentions n) (hn : n.toList.all Text.isIdentifierContinue = true) :
    n ∈ t.layout.words := by
  induction t with
  | host type => exact h
  | item name =>
    obtain rfl : n = name := h
    simp [Layout.words, List.splitOnP_eq_singleton (not_continue_eq_false hn)]
  | boxed t =>
    obtain rfl : n = "Box" := h
    simp [words_boxed]
  | list t =>
    obtain rfl : n = "Vec" := h
    simp [words_list]
  | option t ih =>
    rw [words_option]
    rcases h with rfl | h
    · simp
    · simp [ih h]

end words

/-- The name of the item for a shape. -/
def itemName (shape : String) : String := escapeWord (typeName shape)

/-- The type for `t` holds the type for `u` by value: it mentions its name. -/
def Contains (shapes : List Shape) (t u : Shape) : Prop :=
  t ∈ shapes ∧ u ∈ shapes ∧ ∃ item, shapeItem shapes t = .ok item ∧ item.Mentions (itemName u.name)

instance (shapes : List Shape) (t u : Shape) : Decidable (Contains shapes t u) :=
  match h : shapeItem shapes t with
  | .ok item => decidable_of_iff (t ∈ shapes ∧ u ∈ shapes ∧ item.Mentions (itemName u.name)) (by simp [Contains, h])
  | .error _ => isFalse (by simp [Contains, h])

/-- The words in the type for a property that are no names of items. -/
def foreignWords (type : PropertyType) : List String :=
  hostTypes ++ match type.base with
    | .scalar _ host => ((HostType.read? host).map Layout.words).getD []
    | .generated _ => []

/-- The names of items mean these items: no two types have one name, and neither a host type of a scalar nor the types
that every file refers to have the name of an emitted type in them. -/
structure Apart (shapes : List Shape) : Prop where
  names : ∀ t ∈ shapes, ∀ u ∈ shapes, itemName t.name = itemName u.name → t.name = u.name
  hosts : ∀ t ∈ shapes, ∀ q ∈ t.properties, ∀ u ∈ shapes, itemName u.name ∉ foreignWords q.type

/-- `t` refers to `n`, and not from an input object to another. -/
def Holds (kinds : Kinds) (t : Shape) (n : String) : Prop :=
  t.Uses n ∧ (t.kind.isOutput = true ∨ t.kind = .inputObject ∧ kinds.isInput n = false)

/-- `t` refers to `u`, by the name that it is registered under, and not from an input object to another. -/
def Refers (shapes : List Shape) (t u : Shape) : Prop := t ∈ shapes ∧ u ∈ shapes ∧ Holds shapes t u.name

section items

variable {kinds : Kinds} {role : Role} {box : Bool} {type : PropertyType} {t : Shape} {ft : FieldType} {item : Item}
  {n : String}

theorem mentions_optional {nullable : Bool} (h : (optional nullable ft).Mentions n) : n = "Option" ∨ ft.Mentions n := by
  cases nullable with
  | true => exact h
  | false => exact .inr h

/-- What the type for a property mentions is foreign, or else the name of the item that it refers to, unless that is
boxed or in a list. -/
theorem mentions_fieldType (h : fieldType kinds box type = .ok ft) (hn : ft.Mentions n) :
    n ∈ foreignWords type ∨
      ∃ m, type.base = .generated m ∧ itemName m = n ∧ (box = true → kinds.isInput m = false) := by
  have hhost : n ∈ hostTypes → n ∈ foreignWords type := List.mem_append_left _
  cases type with
  | named base nullable =>
    obtain ⟨t, ht, h⟩ := bind_eq_ok.1 h
    cases h
    rcases mentions_optional hn with rfl | hn
    · exact .inl (hhost (by simp [hostTypes]))
    cases base with
    | scalar name host =>
      rw [baseType] at ht
      split at ht
      next layout hread =>
        cases ht
        refine .inl (List.mem_append_right _ ?_)
        dsimp only [PropertyType.base]
        rw [hread]
        exact hn
      next => cases ht
    | generated m =>
      obtain ⟨i, hi, ht⟩ := bind_eq_ok.1 ht
      cases ht
      split at hn
      next => exact .inl (hhost (by simp [hostTypes, show n = "Box" from hn]))
      next hplain =>
        refine .inr ⟨m, rfl, (identifier_eq_ok hi).symm.trans hn.symm, fun hbox => ?_⟩
        simpa [hbox] using hplain
  | list element nullable =>
    obtain ⟨t, ht, h⟩ := bind_eq_ok.1 h
    cases h
    rcases mentions_optional hn with rfl | hn
    · exact .inl (hhost (by simp [hostTypes]))
    · exact .inl (hhost (by simp [hostTypes, show n = "Vec" from hn]))

theorem mentions_structItem (h : structItem kinds role t = .ok item) (hn : item.Mentions n) :
    ∃ q ∈ t.properties, n ∈ foreignWords q.type ∨
      ∃ m, q.type.base = .generated m ∧ itemName m = n ∧ (role = .input → kinds.isInput m = false) := by
  obtain ⟨_, -, h⟩ := bind_eq_ok.1 h
  obtain ⟨fs, hfs, h⟩ := bind_eq_ok.1 h
  cases h
  obtain ⟨f, hf, hn⟩ := hn
  obtain ⟨⟨q, name⟩, hq, hfield⟩ := exists_of_forall₂_right (fields_forall₂ hfs) hf
  obtain ⟨i, -, hfield⟩ := bind_eq_ok.1 hfield
  obtain ⟨ft, hft, hfield⟩ := bind_eq_ok.1 hfield
  cases hfield
  refine ⟨q, (List.of_mem_zip hq).1, ?_⟩
  simpa using mentions_fieldType hft hn

theorem not_mentions_enumItem {values : List EnumValue} (h : enumItem t values = .ok item) : ¬ item.Mentions n := by
  obtain ⟨_, -, h⟩ := bind_eq_ok.1 h
  obtain ⟨_, -, h⟩ := bind_eq_ok.1 h
  obtain ⟨variants, hvariants, h⟩ := bind_eq_ok.1 h
  cases h
  rintro ⟨v, hv, hn⟩
  obtain ⟨_, -, hmade⟩ := exists_of_forall₂_right (forall₂_of_mapM_ok hvariants) hv
  obtain ⟨_, -, hmade⟩ := bind_eq_ok.1 hmade
  cases hmade
  cases hn

theorem mentions_taggedItem (h : taggedItem t = .ok item) (hn : item.Mentions n) :
    ∃ v ∈ t.variants, itemName v.shapeName = n := by
  obtain ⟨_, -, h⟩ := bind_eq_ok.1 h
  obtain ⟨_, -, h⟩ := bind_eq_ok.1 h
  obtain ⟨variants, hvariants, h⟩ := bind_eq_ok.1 h
  cases h
  obtain ⟨v, hv, hn⟩ := hn
  obtain ⟨u, hu, hmade⟩ := exists_of_forall₂_right (forall₂_of_mapM_ok hvariants) hv
  obtain ⟨_, -, hmade⟩ := bind_eq_ok.1 hmade
  obtain ⟨content, hcontent, hmade⟩ := bind_eq_ok.1 hmade
  cases hmade
  exact ⟨u, hu, (identifier_eq_ok hcontent).symm.trans (Option.some.inj hn)⟩

/-- What the item for a shape mentions is foreign, or else the name of an item for what the shape holds. -/
theorem holds_of_mentions (h : shapeItem kinds t = .ok item) (hn : item.Mentions n) :
    (∃ q ∈ t.properties, n ∈ foreignWords q.type) ∨ ∃ m, itemName m = n ∧ Holds kinds t m := by
  unfold shapeItem at h
  split at h
  next values _ => exact absurd hn (not_mentions_enumItem h)
  next hkind =>
    obtain ⟨q, hq, hhost | ⟨m, hbase, hname, hinput⟩⟩ := mentions_structItem h hn
    · exact .inl ⟨q, hq, hhost⟩
    · exact .inr ⟨m, hname, .inl ⟨q, hq, hbase⟩, .inr ⟨hkind, hinput rfl⟩⟩
  next henum hinput =>
    have houtput : t.kind.isOutput = true := by
      cases hkind : t.kind with
      | enumeration values => exact absurd hkind (henum values)
      | inputObject => exact absurd hkind hinput
      | object | interface | union => rfl
    split at h
    next =>
      obtain ⟨q, hq, hhost | ⟨m, hbase, hname, -⟩⟩ := mentions_structItem h hn
      · exact .inl ⟨q, hq, hhost⟩
      · exact .inr ⟨m, hname, .inl ⟨q, hq, hbase⟩, .inl houtput⟩
    next =>
      obtain ⟨v, hv, hname⟩ := mentions_taggedItem h hn
      exact .inr ⟨v.shapeName, hname, .inr ⟨v, hv, rfl⟩, .inl houtput⟩

end items

/-! ## An order of all types -/

section order

variable {shapes : List Shape} {t u : Shape} {n : String}

/-- With distinct names, the kind that is looked up for a name is its shape's. -/
theorem isInput_iff (hnodup : (shapes.map (·.name)).Nodup) (hu : u ∈ shapes) :
    Kinds.isInput shapes u.name = true ↔ u.kind = .inputObject := by
  have hsome : (shapes.reverse.find? (·.name = u.name)).isSome := by
    rw [List.find?_isSome]
    exact ⟨u, List.mem_reverse.2 hu, by simp⟩
  obtain ⟨v, hv⟩ := Option.isSome_iff_exists.1 hsome
  have hname : v.name = u.name := by simpa using List.find?_some hv
  obtain rfl : v = u := List.inj_on_of_nodup_map hnodup (List.mem_reverse.1 (List.mem_of_find?_eq_some hv)) hu hname
  simp [Kinds.isInput, hv]

/-- Where a type stands: input objects are behind all others. -/
def rank (shapes : List Shape) (t : Shape) : Nat :=
  if t.kind = .inputObject then shapes.length else (shapes.map (·.name)).idxOf t.name

/-- What a shape refers to stands before it. -/
theorem rank_lt (hnodup : (shapes.map (·.name)).Nodup) (hlayered : (⟨shapes⟩ : Registry).Layered)
    (h : Refers shapes t u) : rank shapes u < rank shapes t := by
  obtain ⟨ht, hu, huses, houtput | ⟨hinput, hplain⟩⟩ := h
  -- an output type is registered behind what it refers to; what an input object refers to by value is no input object
  · have hkind : t.kind ≠ .inputObject := fun hkind => by
      rw [hkind] at houtput
      cases houtput
    obtain ⟨pre, post, rfl⟩ := List.append_of_mem ht
    obtain ⟨v, hv, hvkind⟩ := hlayered pre t post rfl houtput _ huses
    have hpre : v ∈ pre := Registry.mem_of_lookup? hv
    have hname := Registry.lookup?_name hv
    obtain rfl : v = u := List.inj_on_of_nodup_map hnodup (List.mem_append_left _ hpre) hu hname
    have hbefore : v.name ∈ pre.map (·.name) := List.mem_map_of_mem hpre
    have hnew : t.name ∉ pre.map (·.name) := by
      rw [List.map_append, List.map_cons, List.nodup_append_comm] at hnodup
      exact fun hmem => (List.nodup_cons.1 hnodup).1 (List.mem_append_right _ hmem)
    rw [rank, rank, if_neg hvkind, if_neg hkind, List.map_append, List.idxOf_append_of_mem hbefore,
      List.idxOf_append_of_notMem hnew]
    exact (List.idxOf_lt_length_iff.2 hbefore).trans_le (Nat.le_add_right_of_le (by simp))
  · have hkind : u.kind ≠ .inputObject := fun hkind => by
      rw [(isInput_iff hnodup hu).2 hkind] at hplain
      cases hplain
    rw [rank, rank, if_neg hkind, if_pos hinput, ← List.length_map (·.name)]
    exact List.idxOf_lt_length_iff.2 (List.mem_map_of_mem hu)

/-- Where names mean what they should, a type that holds another by value refers to it. -/
theorem refers_of_contains {s : Schema} (hintegrity : (⟨shapes⟩ : Registry).Integrity s) (hapart : Apart shapes)
    (h : Contains shapes t u) : Refers shapes t u := by
  obtain ⟨ht, hu, item, hitem, hmentions⟩ := h
  refine ⟨ht, hu, ?_⟩
  rcases holds_of_mentions hitem hmentions with ⟨q, hq, hword⟩ | ⟨m, hname, hholds⟩
  · exact absurd hword (hapart.hosts t ht q hq u hu)
  · obtain ⟨v, hv, rfl⟩ := List.mem_map.1 (hintegrity.closed t ht m hholds.1)
    exact hapart.names v hv u hu hname ▸ hholds

end order

def conditions : Schema where
  types := [
    .scalar ⟨"Int", none⟩,
    .object ⟨"Query", none, [], [⟨"found", .named "Int", none⟩]⟩,
    .input ⟨"Filter", none, [⟨"not", .named "Filter", none⟩, ⟨"all", .list (.nonNull (.named "Filter")), none⟩,
      ⟨"range", .named "Range", none⟩]⟩,
    .input ⟨"Range", none, [⟨"max", .named "Int", none⟩, ⟨"outside", .nonNull (.named "Filter"), none⟩]⟩]
  roots := {}
  scalars := .default

def conditionsQuery : Operation :=
  ⟨some "Find", .query, [⟨"where", .nonNull (.named "Filter"), false⟩], [.field none "found" false []],
    "query Find($where: Filter!) \x7b found \x7d"⟩

/-- The shapes for the data of the query and for its variable. -/
def conditionsShapes : List Shape := [
  ⟨"FindData", "Query", .object, none, [⟨"found", "found", .named (.scalar "Int" "i32") true, none⟩]⟩,
  ⟨"Range", "Range", .inputObject, none, [⟨"max", "max", .named (.scalar "Int" "i32") true, none⟩,
    ⟨"outside", "outside", .named (.generated "Filter") false, none⟩]⟩,
  ⟨"Filter", "Filter", .inputObject, none, [⟨"not", "not", .named (.generated "Filter") true, none⟩,
    ⟨"all", "all", .list (.named (.generated "Filter") false) true, none⟩,
    ⟨"range", "range", .named (.generated "Range") true, none⟩]⟩]

def dated : Schema where
  types := [.scalar ⟨"Date", none⟩, .object ⟨"Query", none, [], [⟨"today", .named "Date", none⟩]⟩]
  roots := {}
  scalars := .insert .default "Date" "QueryData"

def datedQuery : Operation := ⟨none, .query, [], [.field none "today" false []], "\x7b today \x7d"⟩

def datedShape : Shape :=
  ⟨"QueryData", "Query", .object, none, [⟨"today", "today", .named (.scalar "Date" "QueryData") true, none⟩]⟩

/-! A type and its part may become two types of one name. -/

def nested : Schema where
  types := [
    .scalar ⟨"Int", none⟩,
    .object ⟨"FooBar", none, [], [⟨"a", .named "Int", none⟩]⟩,
    .object ⟨"Foo_Bar", none, [], [⟨"b", .named "FooBar", none⟩]⟩,
    .object ⟨"Query", none, [], [⟨"c", .named "Foo_Bar", none⟩]⟩]
  roots := {}
  scalars := .default

def nestedQuery : Operation :=
  ⟨none, .query, [], [.field none "c" false [.field none "b" false [.field none "a" false []]]],
    "\x7b c \x7b b \x7b a \x7d \x7d \x7d"⟩

def nestedShapes : List Shape := [
  ⟨"FooBar", "FooBar", .object, none, [⟨"a", "a", .named (.scalar "Int" "i32") true, none⟩]⟩,
  ⟨"Foo_Bar", "Foo_Bar", .object, none, [⟨"b", "b", .named (.generated "FooBar") true, none⟩]⟩,
  ⟨"QueryData", "Query", .object, none, [⟨"c", "c", .named (.generated "Foo_Bar") true, none⟩]⟩]

end Emission

end TypedQuery
