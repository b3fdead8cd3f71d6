/-
Names that are read from a text. A name token has the characters of a name, so
whatever a reader returns as a name is plain: a name, or nothing where one is
missing (`Gives`). So documents and schemas that texts write have plain names
throughout (`parse_plainNames`), whatever else may be wrong with the texts.
-/
import TypedQuery.Proofs.Excerpts
import TypedQuery.Proofs.Identifiers

namespace TypedQuery

namespace Source

variable {c : Char} {text rest : List Char} {n : String} {m : Nat} {x : Lexeme}

theorem isName_of_scanToken (h : scanToken c rest = (some (.name n), m)) : isName n = true := by
  unfold scanToken at h
  split at h
  next t ht =>
    obtain ⟨ht', -⟩ := Prod.mk.inj h
    cases ht'
    unfold Token.ofPunctuator? at ht
    split at ht <;> cases ht
  next =>
    split at h
    next hstart =>
      obtain ⟨hname, -⟩ := Prod.mk.inj h
      cases hname
      refine isName_iff.2 ⟨c, _, String.toList_ofList, hstart, fun c' hc' => ?_⟩
      exact List.mem_takeWhile_imp hc'
    next =>
      have hstring : ∀ value? : Option (List Char), value?.map (fun cs => Token.string (String.ofList cs)) ≠
          some (.name n) := by
        rintro (_ | value) <;> simp
      have hnumber : ∀ accepted, (if accepted = true then some Token.number else none) ≠ some (.name n) := by
        rintro (_ | _) <;> simp
      repeat' split at h
      all_goals first
        | cases h
        | exact absurd (Prod.mk.inj h).1 (hnumber _)
        | exact absurd (Prod.mk.inj h).1 (hstring _)

theorem isName_of_mem_scan (hx : some x ∈ scan text) (hn : x.token = .name n) : isName n = true := by
  induction text using scan.induct with
  | case1 text k h =>
    rw [scan_nil h] at hx
    cases hx
  | case2 text k c rest h token m hscan ih =>
    rw [scan.eq_def] at hx
    dsimp only at hx
    split at hx
    next => cases hx
    next c' rest' h' =>
      obtain ⟨rfl, rfl⟩ := List.cons.inj (h.symm.trans h')
      rw [hscan] at hx
      rcases List.mem_cons.1 hx with hfirst | hmore
      · obtain ⟨t, rfl, rfl⟩ := Option.map_eq_some_iff.1 hfirst.symm
        obtain rfl : t = .name n := hn
        exact isName_of_scanToken hscan
      · exact ih hmore

end Source

namespace Selection

mutual

/-- The response keys of the fields in a selection at any depth. -/
def keys : Selection → List String
  | field alias? name _ sub => alias?.getD name :: keysOf sub
  | spread _ _ => []
  | inline _ _ sub => keysOf sub

/-- The response keys of the fields in selections at any depth. -/
def keysOf : List Selection → List String
  | [] => []
  | s :: rest => s.keys ++ keysOf rest

end

end Selection

/-! ## Plain names -/

/-- The response keys in selections are plain. -/
def Selection.PlainKeys (selections : List Selection) : Prop := ∀ k ∈ keysOf selections, IsPlain k

structure Operation.PlainNames (op : Operation) : Prop where
  name : ∀ n ∈ op.name?, IsPlain n
  parameters : ∀ v ∈ op.parameters, IsPlain v.name
  keys : Selection.PlainKeys op.selections

structure Document.PlainNames (d : Document) : Prop where
  operations : ∀ op ∈ d.operations, op.PlainNames
  fragments : ∀ f ∈ d.fragments, Selection.PlainKeys f.selections

structure TypeDefinition.PlainNames (t : TypeDefinition) : Prop where
  name : IsPlain t.name
  fields : ∀ f ∈ t.fields, IsPlain f.name
  values : ∀ e, t = .enumeration e → ∀ v ∈ e.values, IsPlain v.name

structure Schema.PlainNames (s : Schema) : Prop where
  types : ∀ t ∈ s.types, t.PlainNames
  roots : ∀ kind, IsPlain (s.rootType kind)

/-- The names that a definition contributes to a document or a schema are plain. -/
def Definition.PlainNames : Definition → Prop
  | .operation op => op.PlainNames
  | .fragment f => Selection.PlainKeys f.selections
  | .type t => t.PlainNames
  | .roots rs => ∀ r ∈ rs, IsPlain r.2
  | .other => True

namespace Reader

variable {α β : Type} {P : α → Prop} {Q : β → Prop}

/-- The names among the tokens of lexemes are plain. -/
def Named (ts : List Lexeme) : Prop := ∀ n, .name n ∈ tokens ts → IsPlain n

theorem Named.suffix {ts ts' : List Lexeme} (h : Named ts) (hsuffix : ts' <:+ ts) : Named ts' := fun n hn =>
  h n (List.map_subset _ hsuffix.subset hn)

/-- From lexemes whose names are plain, `r` reads what `P` holds of. -/
def Gives (P : α → Prop) (r : Reader α) : Prop := ∀ ts, Named ts → P (r ts).value

/-! ## Readers one after another -/

theorem gives_return {a : α} (h : P a) : Gives P (Pure.pure a : Reader α) := fun _ _ => h

theorem Gives.bind {r : Reader α} {f : α → Reader β} (hr : Gives P r) (hlocal : Local r)
    (hf : ∀ a, P a → Gives Q (f a)) : Gives Q (r >>= f) := fun ts hts =>
  hf _ (hr ts hts) _ (hts.suffix (hlocal.trims ts))

/-- Whatever is read first, what follows gives the same. -/
theorem gives_after {r : Reader α} {f : α → Reader β} (hr : Local r) (hf : ∀ a, Gives Q (f a)) :
    Gives Q (r >>= f) := fun ts hts => hf _ _ (hts.suffix (hr.trims ts))

theorem Gives.ite {c : Prop} [Decidable c] {r r' : Reader α} (hr : Gives P r) (hr' : Gives P r') :
    Gives P (if c then r else r') := by
  split
  · exact hr
  · exact hr'

theorem gives_peek : Gives (fun next => ∀ n ∈ next, ∀ w, n = .name w → IsPlain w) peek := by
  intro ts hts t ht w hw
  cases ts with
  | nil => cases ht
  | cons x ts =>
    cases ht
    exact hts w (List.mem_cons.2 (.inl hw.symm))

theorem gives_name? : Gives (fun n? => ∀ n ∈ n?, IsPlain n) name? := by
  refine gives_peek.bind local_peek fun next hnext => ?_
  split
  next n =>
    refine gives_after local_skip fun _ => gives_return fun m hm => ?_
    cases hm
    exact hnext _ rfl n rfl
  next => exact gives_return fun m hm => by cases hm

theorem gives_name : Gives IsPlain name := by
  refine gives_name?.bind local_name? fun n? hn => ?_
  split
  next n => exact gives_return (hn n rfl)
  next => exact gives_after local_fault fun _ => gives_return isPlain_empty

/-- What holds of every item holds of all that are read. -/
theorem gives_many {starts : Token → Bool} {item : Reader α} (hitem : Gives P item) (htrims : Trims item) :
    Gives (fun l => ∀ a ∈ l, P a) (many starts item) := by
  intro ts hts
  induction ts using many.induct starts item with
  | case1 =>
    rw [many]
    exact List.forall_mem_nil _
  | case2 t ts hstarts x hlt ih =>
    rw [many, if_pos hstarts]
    dsimp only
    rw [dif_pos hlt]
    exact List.forall_mem_cons.2 ⟨hitem _ hts, ih (hts.suffix (htrims _))⟩
  | case3 t ts hstarts x hlt =>
    rw [many, if_pos hstarts]
    dsimp only
    rw [dif_neg hlt]
    exact List.forall_mem_singleton.2 (hitem _ hts)
  | case4 t ts hstarts =>
    rw [many, if_neg hstarts]
    exact List.forall_mem_nil _

theorem gives_many1 {starts : Token → Bool} {item : Reader α} (hitem : Gives P item) (hlocal : Local item) :
    Gives (fun l => ∀ a ∈ l, P a) (many1 starts item) := by
  refine (gives_many hitem hlocal.trims).bind (local_many hlocal) fun items hitems => ?_
  exact .ite (gives_after local_fault fun _ => gives_return hitems) (gives_return hitems)

/-! ## Executable definitions -/

theorem plainKeys_cons {selection : Selection} {selections : List Selection} :
    Selection.PlainKeys (selection :: selections) ↔
      (∀ k ∈ selection.keys, IsPlain k) ∧ Selection.PlainKeys selections := by
  rw [Selection.PlainKeys, Selection.keysOf, List.forall_mem_append]
  rfl

theorem plainKeys_nil : Selection.PlainKeys [] := List.forall_mem_nil _

theorem plainKeys_of_mem {selections : List Selection} (h : ∀ selection ∈ selections, ∀ k ∈ selection.keys, IsPlain k) :
    Selection.PlainKeys selections := by
  induction selections with
  | nil => exact List.forall_mem_nil _
  | cons selection selections ih =>
    obtain ⟨hfirst, hrest⟩ := List.forall_mem_cons.1 h
    exact plainKeys_cons.2 ⟨hfirst, ih hrest⟩

section executable

variable {nested : Reader (List Selection)}

theorem gives_field (h : Gives Selection.PlainKeys nested) (hlocal : Local nested) (depth : Nat) :
    Gives (fun selection => ∀ k ∈ selection.keys, IsPlain k) (field nested depth) := by
  have hkeys : ∀ {alias? : Option String} {name : String} {c : Bool} {selections : List Selection},
      IsPlain (alias?.getD name) → Selection.PlainKeys selections →
      ∀ k ∈ (Selection.field alias? name c selections).keys, IsPlain k :=
    fun hkey hsub => List.forall_mem_cons.2 ⟨hkey, hsub⟩
  have htail : ∀ {k : Bool → List Selection → Reader Selection},
      (∀ conditional selections, Selection.PlainKeys selections →
        Gives (fun selection => ∀ k ∈ selection.keys, IsPlain k) (k conditional selections)) →
      Gives (fun selection => ∀ k ∈ selection.keys, IsPlain k) (do
        arguments? .variable depth
        let conditional ← conditionality depth
        let selections ← if (← peek) = some .openBrace then nested else pure []
        k conditional selections) := by
    intro k hk
    refine gives_after (local_arguments? _ _) fun _ => gives_after (local_conditionality _) fun _ =>
      gives_after local_peek fun _ => ?_
    exact .ite (h.bind hlocal fun _ => hk _ _) ((gives_return plainKeys_nil).bind (local_pure _) fun _ => hk _ _)
  refine gives_name.bind local_name fun first hfirst => gives_after (local_accept _) fun _ => .ite ?_ ?_
  · refine gives_after local_name fun n => gives_after (local_pure _) fun second? => htail fun _ _ hsub => ?_
    cases second? <;> exact gives_return (hkeys hfirst hsub)
  · refine gives_after (local_pure _) fun second? => htail fun _ _ hsub => ?_
    cases second? <;> exact gives_return (hkeys hfirst hsub)

theorem gives_fragmentSelection (h : Gives Selection.PlainKeys nested) (hlocal : Local nested) (depth : Nat) :
    Gives (fun selection => ∀ k ∈ selection.keys, IsPlain k) (fragmentSelection nested depth) := by
  have hinline : ∀ condition?, Gives (fun selection => ∀ k ∈ selection.keys, IsPlain k) (do
      let conditional ← conditionality depth
      return .inline condition? conditional (← nested) : Reader Selection) :=
    fun _ => gives_after (local_conditionality _) fun _ => h.bind hlocal fun _ hsub => gives_return hsub
  refine gives_after local_skip fun _ => gives_after local_peek fun next => ?_
  split
  · refine .ite (gives_after local_skip fun _ => gives_after local_name fun condition => hinline _) ?_
    exact gives_after local_skip fun _ => gives_after (local_conditionality _) fun _ =>
      gives_return (List.forall_mem_nil _)
  · exact hinline none

theorem gives_selection (h : Gives Selection.PlainKeys nested) (hlocal : Local nested) (depth : Nat) :
    Gives (fun selection => ∀ k ∈ selection.keys, IsPlain k) (selection nested depth) :=
  gives_after local_peek fun _ => .ite (gives_fragmentSelection h hlocal depth) (gives_field h hlocal depth)

end executable

theorem gives_selectionSet (depth : Nat) : Gives Selection.PlainKeys (selectionSet depth) := by
  induction depth with
  | zero => exact gives_after local_fault fun _ => gives_return plainKeys_nil
  | succ depth ih =>
    have hlocal := local_selectionSet depth
    refine gives_after (local_accept _) fun _ => .ite ?_ (gives_after local_fault fun _ => gives_return plainKeys_nil)
    refine (gives_many1 (gives_selection ih hlocal depth) (local_selection hlocal depth)).bind
      (local_many1 (local_selection hlocal depth)) fun _ hselections => ?_
    exact gives_after (local_expect _) fun _ => gives_return (plainKeys_of_mem hselections)

theorem gives_variableDefinition : Gives (fun v => IsPlain v.name) variableDefinition := by
  have hmissing : ∀ n, IsPlain n →
      Gives (fun v => IsPlain v.name) (do return ⟨n, ← missingType, false⟩ : Reader VariableDefinition) :=
    fun _ hn => gives_after local_missingType fun _ => gives_return hn
  refine gives_after (local_expect _) fun _ => gives_name.bind local_name fun n hn => ?_
  refine gives_after (local_accept _) fun _ => .ite ?_ (hmissing n hn)
  refine gives_after local_peek fun _ => .ite ?_ (hmissing n hn)
  exact gives_after (local_typeRef _) fun _ => gives_after (local_defaultValue? _) fun _ =>
    gives_after (local_directives _ _) fun _ => gives_return hn

theorem gives_variableDefinitions? : Gives (fun vs => ∀ v ∈ vs, IsPlain v.name) variableDefinitions? := by
  refine gives_after (local_accept _) fun _ => .ite ?_ (gives_return (List.forall_mem_nil _))
  refine (gives_many1 gives_variableDefinition local_variableDefinition).bind
    (local_many1 local_variableDefinition) fun _ hparameters => ?_
  exact gives_after (local_expect _) fun _ => gives_return hparameters

theorem gives_operationTail (kind : OperationKind) : Gives Operation.PlainNames (operationTail kind) :=
  gives_name?.bind local_name? fun _ hname =>
    gives_variableDefinitions?.bind local_variableDefinitions? fun _ hparameters =>
      gives_after (local_directives _ _) fun _ =>
        (gives_selectionSet _).bind (local_selectionSet _) fun _ hkeys => gives_return ⟨hname, hparameters, hkeys⟩

theorem gives_operationDefinition (kind? : Option OperationKind) :
    Gives Operation.PlainNames (operationDefinition kind?) := by
  have hbody : ∀ {body : Reader Operation}, Gives Operation.PlainNames body →
      Gives Operation.PlainNames (withText body fun op cs => { op with source := String.ofList cs }) :=
    fun h ts hts => ⟨(h ts hts).name, (h ts hts).parameters, (h ts hts).keys⟩
  cases kind? with
  | none =>
    exact hbody ((gives_selectionSet _).bind (local_selectionSet _) fun _ hkeys =>
      gives_return ⟨fun _ hn => (Option.not_mem_none _ hn).elim, List.forall_mem_nil _, hkeys⟩)
  | some kind => exact hbody (gives_after local_skip fun _ => gives_operationTail kind)

theorem gives_fragmentTail : Gives (fun f => Selection.PlainKeys f.selections) fragmentTail := by
  refine gives_after local_name fun n => ?_
  have hcondition : Gives (fun f => Selection.PlainKeys f.selections) (do
      let condition ← name
      let _ ← directives .variable nestingLimit
      return ⟨n, condition, ← selectionSet nestingLimit, ""⟩ : Reader Fragment) :=
    gives_after local_name fun _ => gives_after (local_directives _ _) fun _ =>
      (gives_selectionSet _).bind (local_selectionSet _) fun _ hkeys => gives_return hkeys
  have hon : Gives (fun f => Selection.PlainKeys f.selections) (do
      unless ← acceptWord "on" do fault
      let condition ← name
      let _ ← directives .variable nestingLimit
      return ⟨n, condition, ← selectionSet nestingLimit, ""⟩ : Reader Fragment) :=
    gives_after (local_acceptWord _) fun _ => .ite hcondition (gives_after local_fault fun _ => hcondition)
  exact .ite (gives_after local_fault fun _ => hon) hon

theorem gives_fragmentDefinition : Gives (fun f => Selection.PlainKeys f.selections) fragmentDefinition :=
  fun ts hts => gives_after local_skip (fun _ => gives_fragmentTail) ts hts

/-! ## Type system definitions -/

theorem gives_fieldDefinition : Gives (fun f => IsPlain f.name) fieldDefinition :=
  gives_after local_description? fun _ => gives_name.bind local_name fun _ hn =>
    gives_after local_argumentDefinitions? fun _ =>
      gives_after ( local_typeAnnotation local_constantDirectives) fun _ => gives_return hn

theorem gives_inputField : Gives (fun f => IsPlain f.name) inputField := by
  have htail : Local (do let _ ← defaultValue? nestingLimit; constantDirectives) :=
    (local_defaultValue? _).bind fun _ => local_constantDirectives
  exact gives_after local_description? fun _ => gives_name.bind local_name fun _ hn =>
    gives_after ( local_typeAnnotation htail) fun _ => gives_return hn

theorem gives_enumValue : Gives (fun v => IsPlain v.name) enumValue := by
  refine gives_after local_description? fun description? => gives_name.bind local_name fun n hn => ?_
  have htail : Gives (fun v => IsPlain v.name) (do constantDirectives; return ⟨n, description?⟩ : Reader EnumValue) :=
    gives_after local_constantDirectives fun _ => gives_return hn
  exact .ite (gives_after local_fault fun _ => htail) htail

theorem gives_inBraces? {item : Reader α} (h : Gives P item) (hlocal : Local item) :
    Gives (fun l => ∀ a ∈ l, P a) (inBraces? item) := by
  refine gives_after local_peek fun _ => .ite ?_ (gives_return (List.forall_mem_nil _))
  refine gives_after local_skip fun _ => (gives_many1 h hlocal).bind (local_many1 hlocal) fun _ hitems => ?_
  exact gives_after (local_expect _) fun _ => gives_return hitems

theorem gives_typeDefinition (kind : TypeKind) (description : Option String) :
    Gives TypeDefinition.PlainNames (typeDefinition kind description) := by
  refine gives_name.bind local_name fun n hn => ?_
  cases kind with
  | scalar =>
    exact gives_after local_constantDirectives fun _ =>
      gives_return ⟨hn, List.forall_mem_nil _, fun e he => by cases he⟩
  | enumeration =>
    refine gives_after local_constantDirectives fun _ =>
      (gives_inBraces? gives_enumValue local_enumValue).bind (local_inBraces? local_enumValue) fun _ hvalues => ?_
    refine gives_return ⟨hn, List.forall_mem_nil _, fun e he => ?_⟩
    cases he
    exact hvalues
  | object | interface =>
    exact gives_after local_implements? fun _ => gives_after local_constantDirectives fun _ =>
      (gives_inBraces? gives_fieldDefinition local_fieldDefinition).bind (local_inBraces? local_fieldDefinition)
        fun _ hfields => gives_return ⟨hn, hfields, fun e he => by cases he⟩
  | union =>
    exact gives_after local_constantDirectives fun _ => gives_after local_unionMembers? fun _ =>
      gives_return ⟨hn, List.forall_mem_nil _, fun e he => by cases he⟩
  | inputObject =>
    exact gives_after local_constantDirectives fun _ =>
      (gives_inBraces? gives_inputField local_inputField).bind (local_inBraces? local_inputField)
        fun _ hfields => gives_return ⟨hn, hfields, fun e he => by cases he⟩

theorem gives_rootType : Gives (fun root? => ∀ root ∈ root?, IsPlain root.2) rootType := by
  have hnone : Gives (fun root? => ∀ root ∈ root?, IsPlain root.2)
      (do fault; return none : Reader (Option (OperationKind × String))) :=
    gives_after local_fault fun _ => gives_return fun root hroot => by cases hroot
  refine gives_after local_name fun word => .ite (gives_after local_fault fun _ => ?_) ?_
  all_goals
    refine gives_after (local_accept _) fun _ => .ite ?_ hnone
    refine gives_name?.bind local_name? fun n? hn => ?_
    cases n? with
    | none => exact hnone
    | some n =>
      refine gives_return fun root hroot => ?_
      cases hroot
      exact hn n rfl

theorem gives_rootTypes? : Gives (fun roots => ∀ root ∈ roots, IsPlain root.2) rootTypes? := by
  refine gives_after (local_accept _) fun _ => .ite ?_ (gives_return (List.forall_mem_nil _))
  refine (gives_many1 gives_rootType local_rootType).bind (local_many1 local_rootType) fun _ hroots => ?_
  refine gives_after (local_expect _) fun _ => gives_return fun root hroot => ?_
  obtain ⟨root?, hmem, rfl⟩ := List.mem_filterMap.1 hroot
  exact hroots _ hmem root rfl

theorem gives_schemaDefinition : Gives (fun roots => ∀ root ∈ roots, IsPlain root.2) schemaDefinition :=
  gives_after local_constantDirectives fun _ => gives_after local_peek fun _ =>
    .ite gives_rootTypes? (gives_after local_fault fun _ => gives_rootTypes?)

/-! ## Definitions -/

theorem gives_stray : Gives Definition.PlainNames stray := fun _ _ => trivial

theorem gives_peekSecond {f : Option Token → Reader α} (h : ∀ second, Gives P (f second)) :
    Gives P (peekSecond >>= f) := fun ts hts => h _ ts hts

theorem gives_extension : Gives Definition.PlainNames extension := by
  refine gives_peekSecond fun next => ?_
  split
  · exact fun _ _ => trivial
  · split <;> exact fun _ _ => trivial
  · exact fun _ _ => trivial

theorem gives_typeSystem? {w : String} {description : Option String} {r : Reader Definition}
    (h : typeSystem? w description = some r) : Gives Definition.PlainNames r :=
  forall_typeSystem? h
    (fun _ => gives_after local_skip fun _ =>
      (gives_typeDefinition _ _).bind (local_typeDefinition _ _) fun _ ht => gives_return ht)
    (gives_after local_skip fun _ => gives_schemaDefinition.bind local_schemaDefinition fun _ hroots =>
      gives_return hroots)
    fun _ _ => trivial

theorem gives_definition : Gives Definition.PlainNames definition :=
  forall_definition id (fun h => gives_after local_peek h) gives_peekSecond
    (fun h => gives_after local_description? h)
    (fun kind? ts hts => gives_operationDefinition kind? ts hts)
    (fun ts hts => gives_fragmentDefinition ts hts) gives_typeSystem? gives_extension gives_stray

theorem gives_definitions : Gives (fun l => ∀ a ∈ l, a.PlainNames) definitions :=
  gives_many gives_definition trims_definition

/-- The names that a text writes are plain. -/
theorem named_scan {text : List Char} {ts : List Lexeme} (h : ∀ x ∈ ts, some x ∈ Source.scan text) : Named ts := by
  intro n hn
  obtain ⟨x, hx, hname⟩ := List.mem_map.1 hn
  exact isPlain_of_isName (Source.isName_of_mem_scan (h x hx) hname)

end Reader

/-! ## Documents and schemas -/

theorem Document.PlainNames.add {d d' : Document} {a : Definition} (h : d.PlainNames) (ha : a.PlainNames)
    (hadd : d.add a = .ok d') : d'.PlainNames := by
  cases a with
  | operation op =>
    cases hadd
    exact ⟨List.forall_mem_append.2 ⟨h.operations, List.forall_mem_singleton.2 ha⟩, h.fragments⟩
  | fragment f =>
    rw [Document.add] at hadd
    split at hadd
    · cases hadd
    · cases hadd
      exact ⟨h.operations, List.forall_mem_append.2 ⟨h.fragments, List.forall_mem_singleton.2 ha⟩⟩
  | type | roots | other =>
    cases hadd
    exact h

theorem Document.plainNames_of_foldlM {definitions : List Definition} {d d' : Document} (h : d.PlainNames)
    (hall : ∀ a ∈ definitions, a.PlainNames) (hd : definitions.foldlM Document.add d = .ok d') : d'.PlainNames := by
  induction definitions generalizing d with
  | nil =>
    cases hd
    exact h
  | cons a definitions ih =>
    obtain ⟨ha, hrest⟩ := List.forall_mem_cons.1 hall
    rw [List.foldlM_cons] at hd
    cases hadd : d.add a with
    | error e =>
      rw [hadd] at hd
      cases hd
    | ok d₁ =>
      rw [hadd] at hd
      exact ih (h.add ha hadd) hrest hd

/-- **The names in a document are plain**, whatever text writes it. -/
theorem Document.plainNames_of_parse {text : String} {d : Document} (h : Document.parse text = .ok d) :
    d.PlainNames := by
  unfold Document.parse at h
  split at h
  next => cases h
  next => cases h
  next ts _ hts =>
    dsimp only at h
    split at h
    next =>
      have hnamed : Reader.Named ts := Reader.named_scan fun x hx => by
        rw [Source.lexemes?_eq_some.1 hts]
        exact List.mem_map_of_mem hx
      exact plainNames_of_foldlM ⟨List.forall_mem_nil _, List.forall_mem_nil _⟩ (Reader.gives_definitions ts hnamed) h
    next => cases h

theorem Schema.PlainNames.define {s : Schema} {t : TypeDefinition} (h : s.PlainNames) (ht : t.PlainNames) :
    (s.define t).PlainNames := by
  unfold Schema.define
  split
  · refine ⟨fun u hu => ?_, h.roots⟩
    obtain ⟨v, hv, rfl⟩ := List.mem_map.1 hu
    split
    · exact ht
    · exact h.types v hv
  · exact ⟨List.forall_mem_append.2 ⟨h.types, List.forall_mem_singleton.2 ht⟩, h.roots⟩

theorem RootTypes.get_set (roots : RootTypes) (kind kind' : OperationKind) (name : String) :
    (roots.set kind name).get kind' = if kind' = kind then name else roots.get kind' := by
  cases kind <;> cases kind' <;> rfl

theorem RootTypes.plain_foldl_set {named : List (OperationKind × String)} {roots : RootTypes}
    (h : ∀ kind, IsPlain (roots.get kind)) (hnamed : ∀ root ∈ named, IsPlain root.2) (kind : OperationKind) :
    IsPlain ((named.foldl (fun r (kind, name) => r.set kind name) roots).get kind) := by
  induction named generalizing roots with
  | nil => exact h kind
  | cons root named ih =>
    obtain ⟨hroot, hrest⟩ := List.forall_mem_cons.1 hnamed
    refine ih (fun kind' => ?_) hrest
    rw [get_set]
    split
    · exact hroot
    · exact h kind'

theorem Schema.PlainNames.add {s : Schema} {a : Definition} (h : s.PlainNames) (ha : a.PlainNames) :
    (s.add a).PlainNames := by
  cases a with
  | type t => exact h.define ha
  | roots rs => exact ⟨h.types, RootTypes.plain_foldl_set h.roots ha⟩
  | operation | fragment | other => exact h

theorem Schema.plainNames_builtin : Schema.builtin.PlainNames where
  types := by
    intro t ht
    obtain ⟨⟨name, host⟩, hmem, rfl⟩ := List.mem_map.1 ht
    have hname : ∀ entry ∈ ScalarMappings.builtin, isName entry.1 = true := by decide
    exact ⟨isPlain_of_isName (hname _ hmem), List.forall_mem_nil _, fun e he => by cases he⟩
  roots := by
    have hroot : ∀ kind, isName (Schema.builtin.rootType kind) = true := by
      intro kind
      cases kind <;> decide
    exact fun kind => isPlain_of_isName (hroot kind)

/-- **The names in a schema are plain**, whatever text writes it. -/
theorem Schema.plainNames_parse (text : String) : (Schema.parse text).PlainNames := by
  have hnamed : Reader.Named (Source.lexemes text.toList) := Reader.named_scan fun x hx => by
    obtain ⟨x?, hmem, rfl⟩ := List.mem_filterMap.1 hx
    exact hmem
  exact List.foldlRecOn _ _ plainNames_builtin fun s hs a ha => hs.add (Reader.gives_definitions _ hnamed a ha)

/-! ## Equality -/

namespace Selection

mutual

/-- Whether two selections are the same. -/
def same : Selection → Selection → Bool
  | field alias? name c sub, field alias?' name' c' sub' =>
    alias? = alias?' && name = name' && c = c' && sameAll sub sub'
  | spread name c, spread name' c' => name = name' && c = c'
  | inline condition? c sub, inline condition?' c' sub' => condition? = condition?' && c = c' && sameAll sub sub'
  | _, _ => false

/-- Whether the selections in two lists are the same, one by one. -/
def sameAll : List Selection → List Selection → Bool
  | [], [] => true
  | s :: rest, s' :: rest' => s.same s' && sameAll rest rest'
  | _, _ => false

end

mutual

theorem same_iff : ∀ {a b : Selection}, a.same b = true ↔ a = b
  | field _ _ _ sub, field _ _ _ sub' => by simp [same, @sameAll_iff sub sub', and_assoc]
  | spread _ _, spread _ _ => by simp [same]
  | inline _ _ sub, inline _ _ sub' => by simp [same, @sameAll_iff sub sub', and_assoc]
  | field _ _ _ _, spread _ _ | field _ _ _ _, inline _ _ _ | spread _ _, field _ _ _ _ | spread _ _, inline _ _ _
  | inline _ _ _, field _ _ _ _ | inline _ _ _, spread _ _ => by simp [same]

theorem sameAll_iff : ∀ {as bs : List Selection}, sameAll as bs = true ↔ as = bs
  | [], [] => by simp [sameAll]
  | s :: rest, s' :: rest' => by simp [sameAll, @same_iff s s', @sameAll_iff rest rest']
  | [], _ :: _ | _ :: _, [] => by simp [sameAll]

end

instance : DecidableEq Selection := fun a b => decidable_of_iff (a.same b = true) same_iff

end Selection

deriving instance DecidableEq for Operation
deriving instance DecidableEq for Fragment
deriving instance DecidableEq for Document

end TypedQuery
