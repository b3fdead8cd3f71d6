/-
The text of a definition stands for the definition. A clean reading of an
operation or a fragment ends with the brace that closes its selection set
(`Closes`), so nothing after it matters, and its text reads as the same
definition wherever it stands (`quotes_definition`). Definitions in a clean
row are read each from an end of what the row is read from (`mem_many`).
-/
import TypedQuery.Proofs.Reading

namespace TypedQuery.Reader

variable {α β : Type}

/-! ## The branches of a definition -/

theorem forall_typeSystem? {P : Reader Definition → Prop} {w : String} {description : Option String}
    {r : Reader Definition} (h : typeSystem? w description = some r)
    (htype : ∀ kind, P (do skip; return .type (← typeDefinition kind description)))
    (hschema : P (do skip; return .roots (← schemaDefinition)))
    (hdirective : P (do skip; directiveDefinition; return .other)) : P r := by
  unfold typeSystem? at h
  split at h
  next kind _ =>
    cases h
    exact htype kind
  next =>
    split at h
    next =>
      cases h
      exact hschema
    next =>
      split at h
      next =>
        cases h
        exact hdirective
      next => cases h

theorem forall_executable? {P : Reader Definition → Prop} {w : String} {r : Reader Definition}
    (h : executable? w = some r) (hoperation : ∀ kind?, P (do return .operation (← operationDefinition kind?)))
    (hfragment : P (do return .fragment (← fragmentDefinition))) : P r := by
  unfold executable? at h
  split at h
  next kind _ =>
    cases h
    exact hoperation (some kind)
  next =>
    split at h
    next =>
      cases h
      exact hfragment
    next => cases h

/-- What holds of every branch holds of a definition: `P` where it may be an executable one, and `Q`, which is
more, elsewhere. -/
theorem forall_definition {P Q : Reader Definition → Prop} (hentails : ∀ {r}, Q r → P r)
    (hpeek : ∀ {f : Option Token → Reader Definition}, (∀ next, P (f next)) → P (peek >>= f))
    (hsecond : ∀ {f : Option Token → Reader Definition}, (∀ second, Q (f second)) → Q (peekSecond >>= f))
    (hdescription : ∀ {f : Option String → Reader Definition}, (∀ description, Q (f description)) →
      Q (description? >>= f))
    (hoperation : ∀ kind?, P (do return .operation (← operationDefinition kind?)))
    (hfragment : P (do return .fragment (← fragmentDefinition)))
    (htypeSystem : ∀ {w description r}, typeSystem? w description = some r → Q r) (hextension : Q extension)
    (hstray : Q stray) : P definition := by
  refine hpeek fun next => ?_
  split
  next => exact hoperation none
  next w =>
    split
    next r hr => exact forall_executable? hr hoperation hfragment
    next =>
      refine hentails ?_
      split
      next r hr => exact htypeSystem hr
      next =>
        split
        · exact hextension
        · exact hstray
  next =>
    refine hentails (hsecond fun second => ?_)
    split
    next w =>
      split
      next =>
        refine hdescription fun description => ?_
        cases hr : typeSystem? w description with
        | some r => exact htypeSystem hr
        | none => exact hstray
      next => exact hstray
    next => exact hstray
  next => exact hentails hstray

/-! ## What is left -/

/-- `r` leaves an end of what it is given. -/
def Trims (r : Reader α) : Prop := ∀ ts, (r ts).rest <:+ ts

theorem Local.trims {r : Reader α} (h : Local r) : Trims r := by
  intro ts
  obtain ⟨a, clean, xs, rest, rfl, hreads⟩ := h ts
  rw [hreads rfl rfl]
  exact List.suffix_append xs rest

theorem Trims.bind {r : Reader α} {f : α → Reader β} (hr : Trims r) (hf : ∀ a, Trims (f a)) :
    Trims (r >>= f) :=
  fun ts => (hf (r ts).value (r ts).rest).trans (hr ts)

theorem trims_return (a : α) : Trims (Pure.pure a) := (local_return a).trims

theorem trims_peekSecond : Trims peekSecond := fun _ => List.suffix_rfl

theorem trims_skip : Trims skip := local_skip.trims

theorem trims_drop : Trims drop := local_drop.trims

theorem trims_schemaExtension : Trims schemaExtension := local_schemaExtension.trims

theorem trims_typeExtension (kind : TypeKind) : Trims (typeExtension kind) :=
  fun ts => (local_typeDefinition kind none).trims ts

theorem trims_withSource {item : Reader α} (h : Trims item) : Trims (withSource item) := h

theorem trims_extension : Trims extension := by
  refine trims_peekSecond.bind fun next => ?_
  split
  next => exact trims_skip.bind fun _ => trims_skip.bind fun _ => trims_schemaExtension.bind fun _ => trims_return _
  next w _ =>
    cases typeKeyword? w with
    | some kind =>
      exact trims_skip.bind fun _ => trims_skip.bind fun _ => (trims_typeExtension kind).bind fun _ => trims_return _
    | none => exact trims_drop.bind fun _ => trims_return _
  next => exact trims_drop.bind fun _ => trims_return _

theorem trims_operationDefinition (kind? : Option OperationKind) : Trims (operationDefinition kind?) := by
  refine .bind (trims_withSource ?_) fun _ => trims_return _
  cases kind? with
  | none => exact (local_selectionSet _).trims.bind fun _ => trims_return _
  | some kind => exact trims_skip.bind fun _ => (local_operationTail kind).trims

theorem trims_fragmentDefinition : Trims fragmentDefinition :=
  .bind (trims_withSource (trims_skip.bind fun _ => local_fragmentTail.trims)) fun _ => trims_return _

theorem trims_stray : Trims stray := trims_drop.bind fun _ => trims_return _

theorem trims_typeSystem? {w : String} {description : Option String} {r : Reader Definition}
    (h : typeSystem? w description = some r) : Trims r :=
  forall_typeSystem? h
    (fun _ => trims_skip.bind fun _ => (local_typeDefinition _ _).trims.bind fun _ => trims_return _)
    (trims_skip.bind fun _ => local_schemaDefinition.trims.bind fun _ => trims_return _)
    (trims_skip.bind fun _ => local_directiveDefinition.trims.bind fun _ => trims_return _)

theorem trims_definition : Trims definition :=
  forall_definition id (fun h => local_peek.trims.bind h) (fun h => trims_peekSecond.bind h)
    (fun h => local_description?.trims.bind h) (fun _ => (trims_operationDefinition _).bind fun _ => trims_return _)
    (trims_fragmentDefinition.bind fun _ => trims_return _) trims_typeSystem? trims_extension trims_stray

/-! ## Closing braces -/

/-- A clean reading by `r` ends with a brace, and nothing that follows it matters. -/
def Closes (r : Reader α) : Prop :=
  ∀ ts, (r ts).clean = true → ∃ a xs x rest, ts = xs ++ x :: rest ∧ x.token = .closeBrace ∧
    ∀ next, Reads r a true (tokens (xs ++ [x])) next

theorem Local.closes_bind {r : Reader α} {f : α → Reader β} (hr : Local r) (hf : ∀ a, Closes (f a)) :
    Closes (r >>= f) := by
  intro ts hclean
  obtain ⟨a, clean, xs, rest, rfl, hreads⟩ := hr ts
  rw [bind_apply, hreads rfl rfl] at hclean
  obtain ⟨rfl, hclean⟩ := Bool.and_eq_true_iff.1 hclean
  obtain ⟨b, ys, x, rest, rfl, hx, hreads'⟩ := hf a rest hclean
  refine ⟨b, xs ++ ys, x, rest, (List.append_assoc _ _ _).symm, hx, fun next => ?_⟩
  rw [List.append_assoc, tokens_append]
  change Reads (r >>= f) b (true && true) _ next
  refine Reads.bind ?_ (hreads' next)
  have hnext : (tokens (ys ++ x :: rest)).head? = (tokens (ys ++ [x])).head?.or next := by cases ys <;> rfl
  rwa [hnext] at hreads

theorem Closes.bind_return {r : Reader α} (h : Closes r) (g : α → β) : Closes (r >>= fun a => Pure.pure (g a)) := by
  intro ts hclean
  obtain ⟨a, xs, x, rest, hts, hx, hreads⟩ := h ts (Bool.and_eq_true_iff.1 hclean).1
  refine ⟨g a, xs, x, rest, hts, hx, fun next ts' rest' hts' hnext => ?_⟩
  rw [bind_apply, hreads next hts' hnext]
  rfl

theorem closes_fault_bind (f : Unit → Reader α) : Closes (fault >>= f) := by
  intro ts hclean
  cases hclean

theorem expect_cons (t : Token) (x : Lexeme) (ts : List Lexeme) :
    expect t (x :: ts) = if x.token = t then ⟨(), true, ts⟩ else ⟨(), false, x :: ts⟩ := by
  have haccept : accept t (x :: ts) = if x.token = t then ⟨true, true, ts⟩ else ⟨false, true, x :: ts⟩ := by
    rw [accept, peek_bind]
    simp only [tokens, List.map_cons, List.head?_cons, Option.some.injEq]
    split <;> rfl
  rw [expect, bind_apply, haccept]
  split <;> rfl

theorem closes_expect : Closes (expect .closeBrace) := by
  intro ts hclean
  cases ts with
  | nil => cases hclean
  | cons x ts =>
    rw [expect_cons] at hclean
    split at hclean
    next hx =>
      refine ⟨(), [], x, ts, rfl, hx, fun next ts' rest hts' _ => ?_⟩
      obtain ⟨x', rfl, hx'⟩ := List.map_eq_singleton_iff.1 hts'
      rw [List.singleton_append, expect_cons, if_pos (hx'.trans hx)]
    next => cases hclean

theorem closes_selectionSet (depth : Nat) : Closes (selectionSet depth) := by
  cases depth with
  | zero => exact closes_fault_bind _
  | succ depth =>
    refine (local_accept _).closes_bind fun opened => ?_
    split
    · have hsel := local_selection (local_selectionSet depth) depth
      exact (local_many1 hsel).closes_bind fun selections => closes_expect.bind_return fun _ => selections
    · exact closes_fault_bind _

theorem closes_operationTail (kind : OperationKind) : Closes (operationTail kind) :=
  local_name?.closes_bind fun _ => local_variableDefinitions?.closes_bind fun _ =>
    (local_directives _ _).closes_bind fun _ => (closes_selectionSet _).bind_return _

theorem closes_fragmentTail : Closes fragmentTail := by
  refine local_name.closes_bind fun n => ?_
  have htail : ∀ condition, Closes (do
      let _ ← directives .variable nestingLimit
      return ⟨n, condition, ← selectionSet nestingLimit, ""⟩ : Reader Fragment) :=
    fun _ => (local_directives _ _).closes_bind fun _ => (closes_selectionSet _).bind_return _
  have hon : Closes (do
      unless ← acceptWord "on" do fault
      let condition ← name
      let _ ← directives .variable nestingLimit
      return ⟨n, condition, ← selectionSet nestingLimit, ""⟩ : Reader Fragment) := by
    refine (local_acceptWord _).closes_bind fun on => ?_
    split
    · exact local_name.closes_bind htail
    · exact closes_fault_bind _
  dsimp only
  split
  · exact closes_fault_bind _
  · exact hon

/-! ## Definitions and their text -/

/-- The text that an executable definition carries. -/
def sourceOf? : Definition → Option String
  | .operation op => some op.source
  | .fragment f => some f.source
  | _ => none

/-- From lexemes with the tokens and the text of `xs`, whatever follows, `r` reads the definition `v`; its
text is theirs. -/
structure Excerpt (r : Reader Definition) (v : Definition) (xs : List Lexeme) : Prop where
  source : sourceOf? v = some (String.ofList (Lexeme.source xs))
  closed : ∃ ys x, xs = ys ++ [x] ∧ x.token = .closeBrace
  reads : ∀ ⦃xs' rest⦄, tokens xs' = tokens xs → Lexeme.source xs' = Lexeme.source xs →
    r (xs' ++ rest) = ⟨v, true, rest⟩

/-- A clean reading of an executable definition takes an excerpt. -/
def Quotes (r : Reader Definition) : Prop :=
  ∀ ts, (r ts).clean = true → (sourceOf? (r ts).value).isSome → ∃ v xs rest, ts = xs ++ rest ∧ Excerpt r v xs

/-- `r` reads no executable definition. -/
def Silent (r : Reader Definition) : Prop := ∀ ts, sourceOf? (r ts).value = none

theorem Silent.quotes {r : Reader Definition} (h : Silent r) : Quotes r := by
  intro ts _ hsome
  rw [h ts] at hsome
  cases hsome

theorem silent_bind {r : Reader α} {f : α → Reader Definition} (h : ∀ a, Silent (f a)) : Silent (r >>= f) :=
  fun ts => h (r ts).value (r ts).rest

theorem silent_stray : Silent stray := fun _ => rfl

theorem silent_extension : Silent extension := by
  refine silent_bind fun next => ?_
  split
  · exact fun _ => rfl
  · split <;> exact fun _ => rfl
  · exact fun _ => rfl

theorem silent_typeSystem? {w : String} {description : Option String} {r : Reader Definition}
    (h : typeSystem? w description = some r) : Silent r :=
  forall_typeSystem? h (fun _ _ => rfl) (fun _ => rfl) fun _ => rfl

theorem quotes_peek {f : Option Token → Reader Definition} (h : ∀ next, Quotes (f next)) : Quotes (peek >>= f) := by
  intro ts hclean hsome
  rw [peek_bind] at hclean hsome
  obtain ⟨v, xs, rest, rfl, hexcerpt⟩ := h _ ts hclean hsome
  refine ⟨v, xs, rest, rfl, hexcerpt.source, hexcerpt.closed, fun xs' rest' htokens hsource => ?_⟩
  obtain ⟨ys, x, rfl, -⟩ := hexcerpt.closed
  have hnext : (tokens (xs' ++ rest')).head? = (tokens (ys ++ [x] ++ rest)).head? := by
    rw [tokens_head?_append, tokens_head?_append, htokens]
    cases ys <;> rfl
  rw [peek_bind, hnext, hexcerpt.reads htokens hsource]

/-- Reads `item`; `f` puts in the text that it took. -/
def withText (item : Reader α) (f : α → List Char → β) : Reader β := do
  let (a, cs) ← withSource item
  return f a cs

theorem withText_apply (item : Reader α) (f : α → List Char → β) (ts : List Lexeme) :
    withText item f ts = ⟨f (item ts).value (Lexeme.source (ts.take (ts.length - (item ts).rest.length))),
      (item ts).clean, (item ts).rest⟩ := bind_return_apply (withSource item) (fun x => f x.1 x.2) ts

theorem Closes.quotes {item : Reader α} (h : Closes item) {f : α → List Char → β} {g : β → Definition}
    (hg : ∀ a cs, sourceOf? (g (f a cs)) = some (String.ofList cs)) : Quotes (do return g (← withText item f)) := by
  intro ts hclean _
  rw [bind_return_apply, withText_apply] at hclean
  obtain ⟨a, xs, x, rest, hts, hx, hreads⟩ := h ts hclean
  refine ⟨g (f a (Lexeme.source (xs ++ [x]))), xs ++ [x], rest, ?_, hg _ _, ⟨xs, x, rfl, hx⟩,
    fun xs' rest' htokens hsource => ?_⟩
  · rw [hts, List.append_assoc]
    rfl
  have htake : (xs' ++ rest').take ((xs' ++ rest').length - rest'.length) = xs' := by
    rw [List.length_append, Nat.add_sub_cancel, List.take_left]
  rw [bind_return_apply, withText_apply, hreads _ htokens rfl]
  dsimp only
  rw [htake, hsource]

theorem quotes_operationDefinition (kind? : Option OperationKind) :
    Quotes (do return .operation (← operationDefinition kind?)) := by
  have hquotes : ∀ {body : Reader Operation}, Closes body →
      Quotes (do return .operation (← withText body fun op cs => { op with source := String.ofList cs })) :=
    fun h => h.quotes fun _ _ => rfl
  cases kind? with
  | none => exact hquotes ((closes_selectionSet _).bind_return _)
  | some kind => exact hquotes (local_skip.closes_bind fun _ => closes_operationTail kind)

theorem quotes_fragmentDefinition : Quotes (do return .fragment (← fragmentDefinition)) := by
  have hbody : Closes (do skip; fragmentTail) := local_skip.closes_bind fun _ => closes_fragmentTail
  exact hbody.quotes (f := fun f cs => { f with source := String.ofList cs }) (g := Definition.fragment) fun _ _ => rfl

theorem quotes_definition : Quotes definition :=
  forall_definition Silent.quotes quotes_peek silent_bind silent_bind quotes_operationDefinition quotes_fragmentDefinition
    silent_typeSystem? silent_extension silent_stray

/-! ## Definitions in a row -/

/-- Each item of a clean list comes from a clean reading of an end of what was given. -/
theorem mem_many {starts : Token → Bool} {item : Reader α} (h : Trims item) {ts : List Lexeme}
    (hclean : (many starts item ts).clean = true) {a : α} (ha : a ∈ (many starts item ts).value) :
    ∃ ts', ts' <:+ ts ∧ (item ts').clean = true ∧ (item ts').value = a := by
  induction ts using many.induct starts item with
  | case1 =>
    rw [many] at ha
    cases ha
  | case2 t ts hstarts x hlt ih =>
    rw [many, if_pos hstarts] at hclean ha
    dsimp only at hclean ha
    rw [dif_pos hlt] at hclean ha
    obtain ⟨hitem, hmore⟩ := Bool.and_eq_true_iff.1 hclean
    rcases List.mem_cons.1 ha with rfl | ha
    · exact ⟨_, List.suffix_rfl, hitem, rfl⟩
    · obtain ⟨ts', hts', h'⟩ := ih hmore ha
      exact ⟨ts', hts'.trans (h _), h'⟩
  | case3 t ts hstarts x hlt =>
    rw [many, if_pos hstarts] at hclean ha
    dsimp only at hclean ha
    rw [dif_neg hlt] at hclean ha
    obtain rfl := List.mem_singleton.1 ha
    exact ⟨_, List.suffix_rfl, hclean, rfl⟩
  | case4 t ts hstarts =>
    rw [many, if_neg hstarts] at ha
    cases ha

end TypedQuery.Reader
