/-
Readers that look no further than the next token. What such a reader
(`Local`) reads from lexemes is what it reads from any other lexemes with the
same tokens, if the token after them is the same; the text of the lexemes and
all that follows do not matter. Sequencing and repetition keep that
(`Local.bind`, `local_many`), so it holds of nearly every reader of source
text. The few that look further are those of extensions and descriptions.
-/
import TypedQuery.Source.Definitions

namespace TypedQuery.Reader

variable {α β : Type}

/-- The tokens of lexemes in a row. -/
def tokens (ts : List Lexeme) : List Token := ts.map (·.token)

@[simp] theorem tokens_append (xs ys : List Lexeme) : tokens (xs ++ ys) = tokens xs ++ tokens ys := List.map_append

theorem tokens_head?_append (xs ys : List Lexeme) :
    (tokens (xs ++ ys)).head? = (tokens xs).head?.or (tokens ys).head? := by
  simp

/-- From any lexemes with the tokens `xs`, in front of the token `next`, `r` reads `a`. -/
def Reads (r : Reader α) (a : α) (clean : Bool) (xs : List Token) (next : Option Token) : Prop :=
  ∀ ⦃ts rest⦄, tokens ts = xs → (tokens rest).head? = next → r (ts ++ rest) = ⟨a, clean, rest⟩

/-- What `r` reads depends on the tokens it takes and the next one. -/
def Local (r : Reader α) : Prop :=
  ∀ ts, ∃ a clean xs rest, ts = xs ++ rest ∧ Reads r a clean (tokens xs) (tokens rest).head?

theorem bind_apply (r : Reader α) (f : α → Reader β) (ts : List Lexeme) :
    (r >>= f) ts = ⟨(f (r ts).value (r ts).rest).value, (r ts).clean && (f (r ts).value (r ts).rest).clean,
      (f (r ts).value (r ts).rest).rest⟩ := rfl

theorem bind_return_apply (r : Reader α) (g : α → β) (ts : List Lexeme) :
    (r >>= fun a => Pure.pure (g a)) ts = ⟨g (r ts).value, (r ts).clean, (r ts).rest⟩ :=
  congrArg (fun clean => Reading.mk (g (r ts).value) clean (r ts).rest) (Bool.and_true _)

theorem peek_bind (f : Option Token → Reader β) (ts : List Lexeme) : (peek >>= f) ts = f (tokens ts).head? ts := by
  cases ts <;> rfl

theorem Reads.bind {r : Reader α} {f : α → Reader β} {a : α} {b : β} {clean clean' : Bool} {xs ys : List Token}
    {next : Option Token} (hr : Reads r a clean xs (ys.head?.or next)) (hf : Reads (f a) b clean' ys next) :
    Reads (r >>= f) b (clean && clean') (xs ++ ys) next := by
  intro ts rest hts hrest
  obtain ⟨ts₁, ts₂, rfl, rfl, rfl⟩ := List.map_eq_append_iff.1 hts
  have hfirst : r (ts₁ ++ (ts₂ ++ rest)) = ⟨a, clean, ts₂ ++ rest⟩ := hr rfl (by rw [tokens_head?_append, hrest]; rfl)
  have hsecond : f a (ts₂ ++ rest) = ⟨b, clean', rest⟩ := hf rfl hrest
  rw [List.append_assoc, bind_apply, hfirst]
  simp only [hsecond]

theorem Local.bind {r : Reader α} {f : α → Reader β} (hr : Local r) (hf : ∀ a, Local (f a)) :
    Local (r >>= f) := by
  intro ts
  obtain ⟨a, clean, xs, rest, rfl, hreads⟩ := hr ts
  obtain ⟨b, clean', ys, rest, rfl, hreads'⟩ := hf a rest
  rw [tokens_head?_append] at hreads
  refine ⟨b, clean && clean', xs ++ ys, rest, (List.append_assoc _ _ _).symm, ?_⟩
  rw [tokens_append]
  exact hreads.bind hreads'

/-! ## Local readers -/

/-- A reader that takes no token. -/
theorem local_of_stays {r : Reader α} (a : Option Token → α) (clean : Bool)
    (h : ∀ ts, r ts = ⟨a (tokens ts).head?, clean, ts⟩) : Local r := by
  intro ts
  refine ⟨a (tokens ts).head?, clean, [], ts, rfl, fun ts' rest hts' hnext => ?_⟩
  obtain rfl := List.map_eq_nil_iff.1 hts'
  rw [List.nil_append, h, hnext]

theorem local_pure (a : α) : Local (pure a) := local_of_stays (fun _ => a) true fun _ => rfl

theorem local_return (a : α) : Local (Pure.pure a) := local_pure a

theorem local_fault : Local fault := local_of_stays (fun _ => ()) false fun _ => rfl

theorem local_peek : Local peek := local_of_stays id true fun ts => by cases ts <;> rfl

theorem local_skip : Local skip := by
  intro ts
  cases ts with
  | nil =>
    refine ⟨(), true, [], [], rfl, fun ts' rest hts' hnext => ?_⟩
    obtain rfl := List.map_eq_nil_iff.1 hts'
    obtain rfl := List.map_eq_nil_iff.1 (List.head?_eq_none_iff.1 hnext)
    rfl
  | cons x ts =>
    refine ⟨(), true, [x], ts, rfl, fun ts' rest hts' _ => ?_⟩
    obtain ⟨x', rfl, -⟩ := List.map_eq_singleton_iff.1 hts'
    rfl

theorem Local.ite {c : Prop} [Decidable c] {r r' : Reader α} (hr : Local r) (hr' : Local r') :
    Local (if c then r else r') := by
  split
  · exact hr
  · exact hr'

theorem local_drop : Local drop := local_fault.bind fun _ => local_skip

theorem local_accept (t : Token) : Local (accept t) :=
  local_peek.bind fun _ => .ite (local_skip.bind fun _ => local_return _) (local_return _)

theorem local_expect (t : Token) : Local (expect t) :=
  (local_accept t).bind fun _ => .ite (local_return _) local_fault

theorem local_name? : Local name? := by
  refine local_peek.bind fun next => ?_
  split
  · exact local_skip.bind fun _ => local_return _
  · exact local_return _

theorem local_name : Local name := by
  refine local_name?.bind fun n? => ?_
  cases n? with
  | none => exact local_fault.bind fun _ => local_return _
  | some n => exact local_return n

theorem local_acceptWord (w : String) : Local (acceptWord w) := local_accept _

theorem local_string? : Local string? := by
  refine local_peek.bind fun next => ?_
  split
  · exact local_skip.bind fun _ => local_return _
  · exact local_return _

section Many

variable {starts : Token → Bool} {item : Reader α} {x : Lexeme} {xs ts rest rest' : List Lexeme} {a : α} {as : List α}
  {clean clean' : Bool}

theorem many_stop (h : (tokens ts).head?.any starts = false) : many starts item ts = ⟨[], true, ts⟩ := by
  cases ts with
  | nil => rw [many]
  | cons t ts =>
    have ht : starts t.token = false := h
    rw [many, ht]
    rfl

/-- An item that takes no token ends the list. -/
theorem many_stuck (h : (tokens ts).head?.any starts = true) (hitem : item ts = ⟨a, clean, ts⟩) :
    many starts item ts = ⟨[a], clean, ts⟩ := by
  cases ts with
  | nil => cases h
  | cons t ts =>
    have ht : starts t.token = true := h
    rw [many, if_pos ht, hitem]
    exact dif_neg (Nat.lt_irrefl _)

theorem many_more (h : starts x.token = true) (hitem : item (x :: (xs ++ rest)) = ⟨a, clean, rest⟩)
    (hmore : many starts item rest = ⟨as, clean', rest'⟩) :
    many starts item (x :: (xs ++ rest)) = ⟨a :: as, clean && clean', rest'⟩ := by
  rw [many, if_pos h, hitem]
  dsimp only
  rw [dif_pos, hmore]
  simp only [List.length_cons, List.length_append]
  omega

theorem local_many (h : Local item) : Local (many starts item) := by
  intro ts
  induction hn : ts.length using Nat.strongRecOn generalizing ts with
  | ind n ih =>
    cases hstarts : (tokens ts).head?.any starts with
    | false =>
      refine ⟨[], true, [], ts, rfl, fun ts' rest hts' hnext => ?_⟩
      obtain rfl := List.map_eq_nil_iff.1 hts'
      exact many_stop (hnext ▸ hstarts)
    | true =>
      obtain ⟨a, clean, xs, rest, rfl, hitem⟩ := h ts
      cases xs with
      | nil =>
        refine ⟨[a], clean, [], rest, rfl, fun ts' rest' hts' hnext => ?_⟩
        obtain rfl := List.map_eq_nil_iff.1 hts'
        exact many_stuck (hnext ▸ hstarts) (hitem rfl hnext)
      | cons x xs =>
        have hlt : rest.length < n := by
          simp only [← hn, List.cons_append, List.length_cons, List.length_append]
          omega
        obtain ⟨as, clean', ys, rest, rfl, hmore⟩ := ih _ hlt rest rfl
        refine ⟨a :: as, clean && clean', x :: xs ++ ys, rest, by simp, fun ts' rest' hts' hnext => ?_⟩
        obtain ⟨ts₁, ts₂, rfl, hts₁, hts₂⟩ := List.map_eq_append_iff.1 (hts'.trans (tokens_append _ ys))
        obtain ⟨x', xs', rfl, hx', -⟩ := List.map_eq_cons_iff.1 hts₁
        have hfirst : item (x' :: xs' ++ (ts₂ ++ rest')) = ⟨a, clean, ts₂ ++ rest'⟩ := by
          refine hitem hts₁ ?_
          rw [tokens_head?_append, tokens_head?_append, hnext, show tokens ts₂ = tokens ys from hts₂]
        rw [List.append_assoc]
        exact many_more (hx' ▸ hstarts) hfirst (hmore hts₂ hnext)

end Many

theorem local_many1 {starts : Token → Bool} {item : Reader α} (h : Local item) : Local (many1 starts item) :=
  (local_many h).bind fun _ => .ite (local_fault.bind fun _ => local_return _) (local_return _)

/-! ## Values -/

theorem local_missingType : Local missingType := local_fault.bind fun _ => local_return _

theorem local_nonNullMark? (t : TypeRef) : Local (nonNullMark? t) :=
  (local_accept _).bind fun _ => .ite (local_return _) (local_return _)

theorem local_typeRefOver {element : Reader TypeRef} (h : Local element) : Local (typeRefOver element) := by
  refine local_peek.bind fun next => ?_
  split
  · exact local_skip.bind fun _ => local_nonNullMark? _
  · exact local_skip.bind fun _ => h.bind fun _ => (local_expect _).bind fun _ => local_nonNullMark? _
  · exact local_drop.bind fun _ => local_return _

theorem local_typeRef (depth : Nat) : Local (typeRef depth) := by
  induction depth with
  | zero => exact local_typeRefOver local_missingType
  | succ depth ih => exact local_typeRefOver ih

theorem local_objectField {value : Reader Unit} (h : Local value) : Local (objectField value) :=
  local_name.bind fun _ => (local_accept _).bind fun _ => .ite h local_fault

theorem local_valueOver {constancy : Constancy} {inside : Bool} {nested : Reader Unit} (h : Local nested) :
    Local (valueOver constancy inside nested) := by
  refine local_peek.bind fun next => ?_
  split
  · have hvariable : Local (do skip; let _ ← name) := local_skip.bind fun _ => local_name.bind fun _ => local_return _
    exact .ite (local_fault.bind fun _ => hvariable) hvariable
  · exact local_skip
  · exact local_skip
  · exact local_skip
  · exact local_skip.bind fun _ => (local_many h).bind fun _ => local_expect _
  · exact local_skip.bind fun _ => (local_many (local_objectField h)).bind fun _ => local_expect _
  · exact .ite local_drop local_fault

theorem local_value (constancy : Constancy) (inside : Bool) (depth : Nat) : Local (value constancy inside depth) := by
  induction depth generalizing inside with
  | zero => exact local_valueOver local_fault
  | succ depth ih => exact local_valueOver (ih true)

theorem local_argument (constancy : Constancy) (depth : Nat) : Local (argument constancy depth) :=
  local_name.bind fun _ => (local_accept _).bind fun _ => .ite (local_value _ _ _) (local_return _)

theorem local_arguments (constancy : Constancy) (depth : Nat) : Local (arguments constancy depth) :=
  (local_expect _).bind fun _ => (local_many1 (local_argument _ _)).bind fun _ => local_expect _

theorem local_arguments? (constancy : Constancy) (depth : Nat) : Local (arguments? constancy depth) :=
  local_peek.bind fun _ => .ite (local_arguments _ _) (local_return _)

theorem local_directive (constancy : Constancy) (depth : Nat) : Local (directive constancy depth) :=
  (local_expect _).bind fun _ => local_name.bind fun _ => (local_arguments? _ _).bind fun _ => local_return _

theorem local_directives (constancy : Constancy) (depth : Nat) : Local (directives constancy depth) :=
  local_many (local_directive _ _)

theorem local_defaultValue? (depth : Nat) : Local (defaultValue? depth) :=
  (local_accept _).bind fun _ => .ite ((local_value _ _ _).bind fun _ => local_return _) (local_return _)

theorem local_separated {separator : Token} {item : Reader α} (h : Local item) : Local (separated separator item) :=
  (local_accept _).bind fun _ => h.bind fun _ => (local_many (local_skip.bind fun _ => h)).bind fun _ => local_return _

/-! ## Executable definitions -/

theorem local_conditionality (depth : Nat) : Local (conditionality depth) :=
  (local_directives _ _).bind fun _ => local_return _

theorem local_field {nested : Reader (List Selection)} (h : Local nested) (depth : Nat) :
    Local (field nested depth) := by
  have htail : ∀ {k : Bool → List Selection → Reader Selection},
      (∀ conditional selections, Local (k conditional selections)) →
      Local (do
        arguments? .variable depth
        let conditional ← conditionality depth
        let selections ← if (← peek) = some .openBrace then nested else pure []
        k conditional selections) := by
    intro k hk
    refine (local_arguments? _ _).bind fun _ => (local_conditionality _).bind fun _ => local_peek.bind fun _ => ?_
    exact .ite (h.bind fun _ => hk _ _) ((local_pure _).bind fun _ => hk _ _)
  refine local_name.bind fun first => (local_accept _).bind fun _ => .ite ?_ ?_
  · refine local_name.bind fun n => (local_pure _).bind fun second? => htail fun _ _ => ?_
    cases second? <;> exact local_return _
  · refine (local_pure _).bind fun second? => htail fun _ _ => ?_
    cases second? <;> exact local_return _

theorem local_fragmentSelection {nested : Reader (List Selection)} (h : Local nested) (depth : Nat) :
    Local (fragmentSelection nested depth) := by
  have hinline : ∀ condition?, Local (do
      let conditional ← conditionality depth
      return .inline condition? conditional (← nested) : Reader Selection) :=
    fun _ => (local_conditionality _).bind fun _ => h.bind fun _ => local_return _
  refine local_skip.bind fun _ => local_peek.bind fun next => ?_
  split
  · refine .ite (local_skip.bind fun _ => local_name.bind fun condition => hinline _) ?_
    exact local_skip.bind fun _ => (local_conditionality _).bind fun _ => local_return _
  · exact hinline none

theorem local_selection {nested : Reader (List Selection)} (h : Local nested) (depth : Nat) :
    Local (selection nested depth) :=
  local_peek.bind fun _ => .ite (local_fragmentSelection h depth) (local_field h depth)

theorem local_selectionSet (depth : Nat) : Local (selectionSet depth) := by
  induction depth with
  | zero => exact local_fault.bind fun _ => local_return _
  | succ depth ih =>
    refine (local_accept _).bind fun _ => .ite ?_ (local_fault.bind fun _ => local_return _)
    exact (local_many1 (local_selection ih depth)).bind fun _ => (local_expect _).bind fun _ => local_return _

theorem local_variableDefinition : Local variableDefinition := by
  have hmissing : ∀ n, Local (do return ⟨n, ← missingType, false⟩ : Reader VariableDefinition) :=
    fun _ => local_missingType.bind fun _ => local_return _
  refine (local_expect _).bind fun _ => local_name.bind fun n => (local_accept _).bind fun _ => .ite ?_ (hmissing n)
  refine local_peek.bind fun _ => .ite ?_ (hmissing n)
  exact (local_typeRef _).bind fun _ => (local_defaultValue? _).bind fun _ => (local_directives _ _).bind fun _ =>
    local_return _

theorem local_variableDefinitions? : Local variableDefinitions? := by
  refine (local_accept _).bind fun _ => .ite ?_ (local_return _)
  exact (local_many1 local_variableDefinition).bind fun _ => (local_expect _).bind fun _ => local_return _

theorem local_operationTail (kind : OperationKind) : Local (operationTail kind) :=
  local_name?.bind fun _ => local_variableDefinitions?.bind fun _ => (local_directives _ _).bind fun _ =>
    (local_selectionSet _).bind fun _ => local_return _

theorem local_fragmentTail : Local fragmentTail := by
  refine local_name.bind fun n => ?_
  have hon : Local (do
      unless ← acceptWord "on" do fault
      let condition ← name
      let _ ← directives .variable nestingLimit
      return ⟨n, condition, ← selectionSet nestingLimit, ""⟩ : Reader Fragment) := by
    have hcondition : Local (do
        let condition ← name
        let _ ← directives .variable nestingLimit
        return ⟨n, condition, ← selectionSet nestingLimit, ""⟩ : Reader Fragment) :=
      local_name.bind fun _ => (local_directives _ _).bind fun _ => (local_selectionSet _).bind fun _ => local_return _
    exact (local_acceptWord _).bind fun _ => .ite hcondition (local_fault.bind fun _ => hcondition)
  exact .ite (local_fault.bind fun _ => hon) hon

/-! ## Type system definitions -/

theorem local_description? : Local description? := local_string?.bind fun _ => local_return _

theorem local_constantDirectives : Local constantDirectives := (local_directives _ _).bind fun _ => local_return _

theorem local_typeAnnotation {tail : Reader Unit} (h : Local tail) : Local ( typeAnnotation tail) := by
  refine (local_accept _).bind fun _ => .ite (local_peek.bind fun _ => .ite ?_ local_missingType) local_missingType
  exact (local_typeRef _).bind fun _ => h.bind fun _ => local_return _

theorem local_inputField : Local inputField := by
  have htail : Local (do let _ ← defaultValue? nestingLimit; constantDirectives) :=
    (local_defaultValue? _).bind fun _ => local_constantDirectives
  exact local_description?.bind fun _ => local_name.bind fun _ => ( local_typeAnnotation htail).bind fun _ =>
    local_return _

theorem local_inBraces? {item : Reader α} (h : Local item) : Local (inBraces? item) := by
  refine local_peek.bind fun _ => .ite (local_skip.bind fun _ => ?_) (local_return _)
  exact (local_many1 h).bind fun _ => (local_expect _).bind fun _ => local_return _

theorem local_argumentDefinitions? : Local argumentDefinitions? := by
  refine (local_accept _).bind fun _ => .ite ?_ (local_return _)
  exact (local_many1 local_inputField).bind fun _ => local_expect _

theorem local_fieldDefinition : Local fieldDefinition :=
  local_description?.bind fun _ => local_name.bind fun _ => local_argumentDefinitions?.bind fun _ =>
    ( local_typeAnnotation local_constantDirectives).bind fun _ => local_return _

theorem local_enumValue : Local enumValue := by
  have htail : ∀ n description?, Local (do constantDirectives; return ⟨n, description?⟩ : Reader EnumValue) :=
    fun _ _ => local_constantDirectives.bind fun _ => local_return _
  refine local_description?.bind fun description? => local_name.bind fun n => ?_
  exact .ite (local_fault.bind fun _ => htail n description?) (htail n description?)

theorem local_nameList (separator : Token) : Local (nameList separator) := by
  have hitem : Local (do
      let n ← name?
      if n.isNone then fault
      return n) :=
    local_name?.bind fun _ => .ite (local_fault.bind fun _ => local_return _) (local_return _)
  exact (local_separated hitem).bind fun _ => local_return _

theorem local_implements? : Local implements? :=
  (local_acceptWord _).bind fun _ => .ite (local_nameList _) (local_return _)

theorem local_unionMembers? : Local unionMembers? :=
  (local_accept _).bind fun _ => .ite (local_nameList _) (local_return _)

theorem local_rootType : Local rootType := by
  refine local_name.bind fun word => .ite (local_fault.bind fun _ => ?_) ?_
  all_goals
    refine (local_accept _).bind fun _ => .ite ?_ (local_fault.bind fun _ => local_return _)
    refine local_name?.bind fun n? => ?_
    cases n? with
    | none => exact local_fault.bind fun _ => local_return _
    | some n => exact local_return _

theorem local_rootTypes? : Local rootTypes? := by
  refine (local_accept _).bind fun _ => .ite ?_ (local_return _)
  exact (local_many1 local_rootType).bind fun _ => (local_expect _).bind fun _ => local_return _

theorem local_typeDefinition (kind : TypeKind) (description : Option String) :
    Local (typeDefinition kind description) := by
  refine local_name.bind fun n => ?_
  cases kind with
  | scalar => exact local_constantDirectives.bind fun _ => local_return _
  | enumeration =>
    exact local_constantDirectives.bind fun _ => (local_inBraces? local_enumValue).bind fun _ => local_return _
  | object | interface =>
    exact local_implements?.bind fun _ => local_constantDirectives.bind fun _ =>
      (local_inBraces? local_fieldDefinition).bind fun _ => local_return _
  | union => exact local_constantDirectives.bind fun _ => local_unionMembers?.bind fun _ => local_return _
  | inputObject =>
    exact local_constantDirectives.bind fun _ => (local_inBraces? local_inputField).bind fun _ => local_return _

theorem local_schemaDefinition : Local schemaDefinition :=
  local_constantDirectives.bind fun _ => local_peek.bind fun _ =>
    .ite local_rootTypes? (local_fault.bind fun _ => local_rootTypes?)

theorem local_directiveLocation : Local directiveLocation := by
  refine local_peek.bind fun next => ?_
  split
  · exact .ite local_skip local_fault
  · exact local_fault

theorem local_directiveDefinition : Local directiveDefinition := by
  have hlocations : Local (do let _ ← separated .pipe directiveLocation) :=
    (local_separated local_directiveLocation).bind fun _ => local_return _
  refine (local_expect _).bind fun _ => local_name.bind fun _ => local_argumentDefinitions?.bind fun _ => ?_
  refine (local_acceptWord _).bind fun _ => (local_acceptWord _).bind fun _ => ?_
  exact .ite hlocations (local_fault.bind fun _ => hlocations)

theorem local_schemaExtension : Local schemaExtension :=
  (local_directives _ _).bind fun _ => local_rootTypes?.bind fun _ => .ite local_fault (local_return _)

end TypedQuery.Reader
