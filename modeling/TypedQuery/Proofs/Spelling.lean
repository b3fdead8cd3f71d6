/-
How type system definitions are spelled in tokens, and that they are read
back. `Takes r a xs next` says that the reader `r` makes `a` of the tokens
`xs` in front of the token `next`, with or without a fault on the way; each
construct has its tokens and one lemma. What may follow matters for the
constructs that may go on: a type for the mark after it, an item of a list
for the start of the next one (`takes_many`). Default values are spelled as
constants (`Constant`), whose brackets nest no deeper than they are read.
-/
import TypedQuery.Proofs.Reading
import Mathlib.Data.List.Forall2

namespace TypedQuery

open Reader

namespace Reader

variable {α β : Type}

/-- From the tokens `xs` in front of `next`, `r` reads `a`. -/
def Takes (r : Reader α) (a : α) (xs : List Token) (next : Option Token) : Prop := ∃ clean, Reads r a clean xs next

section Takes

variable {r : Reader α} {f : α → Reader β} {a : α} {b : β} {xs ys : List Token} {next : Option Token} {t : Token}

theorem Takes.bind (hr : Takes r a xs (ys.head?.or next)) (hf : Takes (f a) b ys next) :
    Takes (r >>= f) b (xs ++ ys) next := by
  obtain ⟨clean, hr⟩ := hr
  obtain ⟨clean', hf⟩ := hf
  exact ⟨_, hr.bind hf⟩

/-- From all its tokens, `r` reads `a`. -/
theorem Takes.whole (h : Takes r a xs none) {ts : List Lexeme} (hts : tokens ts = xs) : (r ts).value = a := by
  obtain ⟨clean, h⟩ := h
  have hread : r (ts ++ []) = ⟨a, clean, []⟩ := h hts rfl
  rw [List.append_nil] at hread
  rw [hread]

/-- What comes last takes nothing more. -/
theorem Takes.bind_last (hr : Takes r a xs next) (hf : Takes (f a) b [] next) : Takes (r >>= f) b xs next := by
  have h : Takes (r >>= f) b (xs ++ []) next := Takes.bind (by simpa using hr) hf
  rwa [List.append_nil] at h

/-- What comes first takes nothing. -/
theorem Takes.bind_first (hr : Takes r a [] (xs.head?.or next)) (hf : Takes (f a) b xs next) :
    Takes (r >>= f) b xs next :=
  hr.bind hf

theorem takes_return : Takes (Pure.pure a) a [] next := by
  refine ⟨true, fun ts rest hts _ => ?_⟩
  obtain rfl := List.map_eq_nil_iff.1 hts
  rfl

theorem takes_fault : Takes fault () [] next := by
  refine ⟨false, fun ts rest hts _ => ?_⟩
  obtain rfl := List.map_eq_nil_iff.1 hts
  rfl

theorem takes_skip : Takes skip () [t] next := by
  refine ⟨true, fun ts rest hts _ => ?_⟩
  obtain ⟨x, rfl, -⟩ := List.map_eq_singleton_iff.1 hts
  rfl

theorem takes_peek {f : Option Token → Reader β} (hf : Takes (f (xs.head?.or next)) b xs next) :
    Takes (peek >>= f) b xs next := by
  obtain ⟨clean, hf⟩ := hf
  refine ⟨clean, fun ts rest hts hrest => ?_⟩
  rw [peek_bind, tokens_head?_append, hts, hrest]
  exact hf hts hrest

theorem takes_accept (t : Token) : Takes (accept t) true [t] next :=
  takes_peek (by rw [List.head?_cons, Option.some_or, if_pos rfl]; exact takes_skip.bind takes_return)

theorem takes_accept_ne (h : next ≠ some t) : Takes (accept t) false [] next :=
  takes_peek (by rw [List.head?_nil, Option.none_or, if_neg h]; exact takes_return)

theorem takes_expect (t : Token) : Takes (expect t) () [t] next := (takes_accept t).bind_last takes_return

theorem takes_name? (n : String) : Takes name? (some n) [.name n] next := takes_peek (takes_skip.bind takes_return)

theorem takes_name (n : String) : Takes name n [.name n] next := (takes_name? n).bind_last takes_return

theorem takes_string? (s : String) : Takes string? (some s) [.string s] next :=
  takes_peek (takes_skip.bind takes_return)

theorem takes_string?_ne (h : next.any Token.isString = false) : Takes string? none [] next := by
  refine takes_peek ?_
  rw [List.head?_nil, Option.none_or]
  split
  next s => cases h
  next => exact takes_return

theorem takes_many_nil {starts : Token → Bool} {item : Reader α} (hend : next.any starts = false) :
    Takes (many starts item) [] [] next := by
  refine ⟨true, fun ts rest hts hrest => ?_⟩
  obtain rfl := List.map_eq_nil_iff.1 hts
  exact many_stop (hrest ▸ hend)

theorem takes_many_cons {starts : Token → Bool} {item : Reader α} {as : List α} (hhead : xs.head?.any starts = true)
    (hitem : Takes item a xs (ys.head?.or next)) (hmore : Takes (many starts item) as ys next) :
    Takes (many starts item) (a :: as) (xs ++ ys) next := by
  obtain ⟨clean, hitem⟩ := hitem
  obtain ⟨clean', hmore⟩ := hmore
  refine ⟨clean && clean', fun ts rest hts hrest => ?_⟩
  obtain ⟨ts₁, ts₂, rfl, rfl, rfl⟩ := List.map_eq_append_iff.1 hts
  cases ts₁ with
  | nil => cases hhead
  | cons x ts₁ =>
    have hfirst : item (x :: ts₁ ++ (ts₂ ++ rest)) = ⟨a, clean, ts₂ ++ rest⟩ :=
      hitem rfl (by rw [tokens_head?_append, hrest]; rfl)
    rw [List.append_assoc]
    exact many_more hhead hfirst (hmore rfl hrest)

/-- The items of a list are read one after the other, if what begins one, and what comes after the last,
may follow one. -/
theorem takes_many {starts : Token → Bool} {item : Reader α} (follows : Option Token → Prop) {as : List α}
    {items : List (List Token)}
    (hitems : List.Forall₂ (fun a xs => xs.head?.any starts = true ∧ follows xs.head? ∧
      ∀ next, follows next → Takes item a xs next) as items)
    (hnext : follows next) (hend : next.any starts = false) : Takes (many starts item) as items.flatten next := by
  induction hitems with
  | nil => exact takes_many_nil hend
  | cons hitem htail ih =>
    refine takes_many_cons hitem.1 (hitem.2.2 _ ?_) ih
    cases htail with
    | nil => exact hnext
    | @cons _ ys _ _ hitem' _ =>
      cases ys with
      | nil => cases hitem'.1
      | cons t ys => exact hitem'.2.1

/-- That there has to be an item changes nothing in what is read. -/
theorem Takes.many1 {starts : Token → Bool} {item : Reader α} {as : List α}
    (h : Takes (many starts item) as xs next) : Takes (many1 starts item) as xs next := by
  refine h.bind_last ?_
  split
  · exact takes_fault.bind_last takes_return
  · exact takes_return

end Takes

/-! ## Types -/

/-- The tokens of a type reference. -/
def spellType : TypeRef → List Token
  | .named n => [.name n]
  | .list e => .openBracket :: (spellType e ++ [.closeBracket])
  | .nonNull t => spellType t ++ [.bang]

/-- A type reference with at most so many list layers, and no mark on a mark. -/
def TypeFits : Nat → TypeRef → Prop
  | _, .named _ => True
  | 0, .list _ => False
  | depth + 1, .list e => TypeFits depth e
  | depth, .nonNull t => t.isNonNull = false ∧ TypeFits depth t

theorem takes_nonNullMark? {t : TypeRef} {next : Option Token} (h : next ≠ some .bang) :
    Takes (nonNullMark? t) t [] next :=
  (takes_accept_ne h).bind_last takes_return

theorem takes_nonNullMark?_mark {t : TypeRef} {next : Option Token} :
    Takes (nonNullMark? t) (.nonNull t) [.bang] next :=
  (takes_accept .bang).bind_last takes_return

/-- A type without a mark is read up to its mark. -/
theorem takes_typeRefOver {element : Reader TypeRef} {t t' : TypeRef} {mark : List Token} {next : Option Token}
    (helement : ∀ e, t = .list e → Takes element e (spellType e) (some .closeBracket)) (ht : t.isNonNull = false)
    (hmark : Takes (nonNullMark? t) t' mark next) : Takes (typeRefOver element) t' (spellType t ++ mark) next := by
  cases t with
  | named n => exact takes_peek (takes_skip.bind hmark)
  | nonNull t => cases ht
  | list e =>
    refine takes_peek (takes_skip.bind ?_)
    change Takes _ _ (spellType e ++ [.closeBracket] ++ mark) _
    rw [List.append_assoc]
    exact (helement e rfl).bind ((takes_expect _).bind hmark)

/-- A type that fits is read up to what is no mark. -/
theorem takes_typeRef {depth : Nat} {t : TypeRef} (h : TypeFits depth t) {next : Option Token}
    (hnext : next ≠ some .bang) : Takes (typeRef depth) t (spellType t) next := by
  induction depth generalizing t next with
  | zero =>
    rw [typeRef]
    cases t with
    | named n => simpa using takes_typeRefOver (t := .named n) (by simp) rfl (takes_nonNullMark? hnext)
    | list e => cases h
    | nonNull t =>
      refine takes_typeRefOver ?_ h.1 takes_nonNullMark?_mark
      rintro e rfl
      exact absurd h.2 (by simp [TypeFits])
  | succ depth ih =>
    rw [typeRef]
    have hlist : ∀ e, TypeFits (depth + 1) (.list e) → Takes (typeRef depth) e (spellType e) (some .closeBracket) :=
      fun e he => ih he (by simp)
    cases t with
    | named n => simpa using takes_typeRefOver (t := .named n) (by simp) rfl (takes_nonNullMark? hnext)
    | list e =>
      have helement : ∀ e', TypeRef.list e = .list e' →
          Takes (typeRef depth) e' (spellType e') (some .closeBracket) := by
        rintro e' ⟨⟩
        exact hlist e h
      have hread := takes_typeRefOver helement rfl (takes_nonNullMark? hnext)
      rwa [List.append_nil] at hread
    | nonNull t =>
      refine takes_typeRefOver ?_ h.1 takes_nonNullMark?_mark
      rintro e rfl
      exact hlist e h.2

/-! ## Constants -/

/-- The tokens of a constant whose parts are `nested`. -/
inductive ConstantOver (nested : List Token → Prop) : List Token → Prop
  | number : ConstantOver nested [.number]
  | string (s : String) : ConstantOver nested [.string s]
  | name (n : String) : ConstantOver nested [.name n]
  | list {items : List (List Token)} (h : ∀ i ∈ items, nested i) :
    ConstantOver nested (.openBracket :: (items.flatten ++ [.closeBracket]))
  | object {fields : List (String × List Token)} (h : ∀ f ∈ fields, nested f.2) :
    ConstantOver nested (.openBrace :: ((fields.map fun f => .name f.1 :: .colon :: f.2).flatten ++ [.closeBrace]))

/-- The tokens of a constant whose parts are under at most so many brackets. -/
def Constant : Nat → List Token → Prop
  | 0 => ConstantOver fun _ => False
  | depth + 1 => ConstantOver (Constant depth)

theorem Constant.over : ∀ {depth : Nat} {xs : List Token}, Constant depth xs → ∃ nested, ConstantOver nested xs
  | 0, _, h => ⟨_, h⟩
  | _ + 1, _, h => ⟨_, h⟩

theorem ConstantOver.head {nested : List Token → Prop} {xs : List Token} (h : ConstantOver nested xs) :
    xs.head?.any (· ≠ .closeBracket) = true := by
  cases h <;> rfl

theorem takes_valueOver {nested : List Token → Prop} {part : Reader Unit} {xs : List Token} {inside : Bool}
    (hparts : ∀ xs, nested xs → xs.head?.any (· ≠ .closeBracket) = true ∧ ∀ next, Takes part () xs next)
    (h : ConstantOver nested xs) (next : Option Token) : Takes (valueOver .constant inside part) () xs next := by
  cases h with
  | number | string | name => exact takes_peek takes_skip
  | @list items hitems =>
    have hmany : Takes (many (· ≠ .closeBracket) part) (items.map fun _ => ()) items.flatten (some .closeBracket) := by
      refine takes_many (fun _ => True) ?_ trivial (by simp)
      rw [List.forall₂_map_left_iff, List.forall₂_same]
      exact fun i hi => (hparts i (hitems i hi)).imp_right fun h => ⟨trivial, fun next _ => h next⟩
    exact takes_peek (takes_skip.bind (hmany.bind (takes_expect _)))
  | @object fields hfields =>
    have hmany : Takes (many Token.isName (objectField part)) (fields.map fun _ => ())
        (fields.map fun f => .name f.1 :: .colon :: f.2).flatten (some .closeBrace) := by
      refine takes_many (fun _ => True) ?_ trivial rfl
      rw [List.forall₂_map_left_iff, List.forall₂_map_right_iff, List.forall₂_same]
      refine fun f hf => ⟨rfl, trivial, fun next _ => ?_⟩
      exact (takes_name f.1).bind ((takes_accept .colon).bind ((hparts f.2 (hfields f hf)).2 next))
    exact takes_peek (takes_skip.bind (hmany.bind (takes_expect _)))

/-- A constant is read, however much follows. -/
theorem takes_value {depth : Nat} {xs : List Token} (h : Constant depth xs) (inside : Bool) (next : Option Token) :
    Takes (value .constant inside depth) () xs next := by
  induction depth generalizing xs inside next with
  | zero => exact takes_valueOver (fun _ hn => absurd hn not_false) h next
  | succ depth ih =>
    refine takes_valueOver (fun xs hn => ⟨?_, fun next => ih hn true next⟩) h next
    obtain ⟨nested, hover⟩ := hn.over
    exact hover.head

theorem constant_string (depth : Nat) (s : String) : Constant depth [.string s] := by
  cases depth <;> exact .string s

/-! ## What surrounds a name -/

/-- What may follow an item of a list of definitions: the next item, or the end of the list. -/
def endsItem (next : Option Token) : Bool := next.all fun t => t.isNameOrString || t = .closeParen || t = .closeBrace

theorem ne_of_endsItem {next : Option Token} (h : endsItem next = true) {t : Token} (ht : endsItem (some t) = false) :
    next ≠ some t := by
  rintro rfl
  rw [ht] at h
  cases h

/-- A description is a string, or nothing. -/
def spellString (s? : Option String) : List Token := (s?.map .string).toList

theorem takes_description? (s? : Option String) {next : Option Token} (h : next.any Token.isString = false) :
    Takes description? (s?.filter (· ≠ "")) (spellString s?) next := by
  cases s? with
  | none => exact (takes_string?_ne h).bind_last takes_return
  | some s => exact (takes_string? s).bind_last takes_return

/-- The tokens of the directive that deprecates, or none; of a reason that is refused no token is left. -/
inductive DeprecationSpelling : List Token → Prop
  | absent : DeprecationSpelling []
  | bare : DeprecationSpelling [.atSign, .name "deprecated"]
  | reason (s? : Option String) : DeprecationSpelling (.atSign :: .name "deprecated" :: .openParen :: .name "reason" ::
      .colon :: (spellString s? ++ [.closeParen]))

theorem takes_value_string (s? : Option String) (depth : Nat) :
    Takes (value .constant false depth) () (spellString s?) (some .closeParen) := by
  cases s? with
  | some s => exact takes_value (constant_string depth s) false _
  | none => cases depth <;> exact takes_peek takes_fault

/-- One argument in parentheses. -/
theorem takes_arguments?_reason (s? : Option String) (depth : Nat) {next : Option Token} :
    Takes (arguments? .constant depth) ()
      (.openParen :: .name "reason" :: .colon :: (spellString s? ++ [.closeParen])) next := by
  have hargument : Takes (argument .constant depth) () (.name "reason" :: .colon :: spellString s?)
      (some .closeParen) :=
    (takes_name _).bind ((takes_accept .colon).bind (takes_value_string s? depth))
  have hmany : Takes (many Token.isName (argument .constant depth)) [()]
      (.name "reason" :: .colon :: spellString s? ++ []) (some .closeParen) :=
    takes_many_cons rfl hargument (takes_many_nil rfl)
  rw [List.append_nil] at hmany
  have harguments : Takes (arguments .constant depth) ()
      ([.openParen] ++ (.name "reason" :: .colon :: spellString s? ++ [.closeParen])) next := by
    refine (takes_expect .openParen).bind ?_
    exact hmany.many1.bind (takes_expect .closeParen)
  refine takes_peek ?_
  rw [List.head?_cons, Option.some_or, if_pos rfl]
  exact harguments

/-- Of directives nothing is kept. -/
theorem takes_constantDirectives {xs : List Token} (h : DeprecationSpelling xs) {next : Option Token}
    (hat : next ≠ some .atSign) (hparen : next ≠ some .openParen) : Takes constantDirectives () xs next := by
  have hend : next.any (· = .atSign) = false := by
    cases next with
    | none => rfl
    | some t => simpa using hat
  -- a directive has arguments if a parenthesis is next
  have hdirective : ∀ {xs}, Takes (arguments? .constant nestingLimit) () xs next →
      Takes constantDirectives () (.atSign :: .name "deprecated" :: xs) next := by
    intro xs harguments
    have hone : Takes (directive .constant nestingLimit) "deprecated" (.atSign :: .name "deprecated" :: xs) next :=
      (takes_expect _).bind ((takes_name _).bind (harguments.bind_last takes_return))
    have hmany : Takes (directives .constant nestingLimit) ["deprecated"]
        (.atSign :: .name "deprecated" :: xs ++ []) next :=
      takes_many_cons rfl hone (takes_many_nil hend)
    rw [List.append_nil] at hmany
    exact hmany.bind_last takes_return
  cases h with
  | absent => exact (takes_many_nil hend).bind_last takes_return
  | bare => exact hdirective (takes_peek (by rw [List.head?_nil, Option.none_or, if_neg hparen]; exact takes_return))
  | reason s? => exact hdirective (takes_arguments?_reason s? nestingLimit)

theorem takes_noDirectives {next : Option Token} (h : next ≠ some .atSign) (hparen : next ≠ some .openParen) :
    Takes constantDirectives () [] next :=
  takes_constantDirectives .absent h hparen

/-! ## Fields, values and names -/

def spellDefault (default? : Option (List Token)) : List Token := (default?.map (.equals :: ·)).getD []

theorem takes_defaultValue? {default? : Option (List Token)} (hd : ∀ xs ∈ default?, Constant nestingLimit xs)
    {next : Option Token} (h : next ≠ some .equals) :
    Takes (defaultValue? nestingLimit) default?.isSome (spellDefault default?) next := by
  cases default? with
  | none => exact (takes_accept_ne h).bind_last takes_return
  | some xs => exact (takes_accept .equals).bind ((takes_value (hd xs rfl) false _).bind_last takes_return)

theorem spellType_head (t : TypeRef) : ∃ first more, spellType t = first :: more ∧ startsType first = true := by
  induction t with
  | named n => exact ⟨_, _, rfl, rfl⟩
  | list e => exact ⟨_, _, rfl, rfl⟩
  | nonNull t ih =>
    obtain ⟨first, more, h, hstarts⟩ := ih
    exact ⟨first, more ++ [.bang], by rw [spellType, h, List.cons_append], hstarts⟩

theorem takes_typeAnnotation {t : TypeRef} (ht : TypeFits nestingLimit t) {tail : Reader Unit} {xs : List Token}
    {next : Option Token} (htail : Takes tail () xs next) (hbang : xs.head?.or next ≠ some .bang) :
    Takes ( typeAnnotation tail) t (.colon :: (spellType t ++ xs)) next := by
  obtain ⟨first, more, hspell, hstarts⟩ := spellType_head t
  refine (takes_accept .colon).bind (takes_peek ?_)
  change Takes (if ((spellType t ++ xs).head?.or next).any startsType then _ else _) _ (spellType t ++ xs) _
  have hhead : (spellType t ++ xs).head?.or next = some first := by rw [hspell]; rfl
  rw [hhead, if_pos (by simpa using hstarts)]
  exact (takes_typeRef ht hbang).bind (htail.bind_last takes_return)

/-- An argument, or a field of an input object. -/
inductive InputSpelling : FieldDefinition → List Token → Prop
  | mk {s? n t default?} (ht : TypeFits nestingLimit t) (hd : ∀ xs ∈ default?, Constant nestingLimit xs) :
    InputSpelling ⟨n, t, s?.filter (· ≠ "")⟩
      (spellString s? ++ .name n :: .colon :: (spellType t ++ spellDefault default?))

theorem takes_inputField {f : FieldDefinition} {xs : List Token} (h : InputSpelling f xs) {next : Option Token}
    (hnext : endsItem next = true) : Takes inputField f xs next := by
  obtain @⟨s?, n, t, default?, ht, hd⟩ := h
  have htail : Takes (do let _ ← defaultValue? nestingLimit; constantDirectives) () (spellDefault default?) next :=
    (takes_defaultValue? hd (ne_of_endsItem hnext rfl)).bind_last
      (takes_noDirectives (ne_of_endsItem hnext rfl) (ne_of_endsItem hnext rfl))
  have hbang : (spellDefault default?).head?.or next ≠ some .bang := by
    cases default? with
    | none => exact ne_of_endsItem hnext rfl
    | some => exact nofun
  have htype := takes_typeAnnotation ht htail hbang
  exact (takes_description? s? rfl).bind ((takes_name n).bind (htype.bind_last takes_return))

/-- Items that begin with a name, or with a string in front of it. -/
theorem endsItem_spelled (s? : Option String) (n : String) (xs : List Token) :
    (spellString s? ++ .name n :: xs).head?.any Token.isNameOrString = true ∧
      endsItem (spellString s? ++ .name n :: xs).head? = true := by
  cases s? <;> exact ⟨rfl, rfl⟩

/-- Items of a definition, each read in front of what ends it. -/
def Items (item : Reader α) (as : List α) (items : List (List Token)) : Prop :=
  List.Forall₂ (fun a xs => xs.head?.any Token.isNameOrString = true ∧ endsItem xs.head? = true ∧
    ∀ next, endsItem next = true → Takes item a xs next) as items

/-- A name stands in front, or a description and a name. -/
def BeginsNamed (xs : List Token) : Prop :=
  ∃ (s? : Option String) (n : String) (rest : List Token), xs = spellString s? ++ .name n :: rest

/-- Items with a name in front are read one after another. -/
theorem items_of_spelling {α : Type} {item : Reader α} {Spelling : α → List Token → Prop}
    (hnamed : ∀ {a xs}, Spelling a xs → BeginsNamed xs)
    (htakes : ∀ {a xs}, Spelling a xs → ∀ {next}, endsItem next = true → Takes item a xs next) {as : List α}
    {items : List (List Token)} (h : List.Forall₂ Spelling as items) : Items item as items := by
  refine h.imp fun a xs ha => ?_
  obtain ⟨s?, n, rest, hxs⟩ := hnamed ha
  obtain ⟨hbegins, hends⟩ := endsItem_spelled s? n rest
  rw [← hxs] at hbegins hends
  exact ⟨hbegins, hends, fun next => htakes ha⟩

theorem InputSpelling.named {f : FieldDefinition} {xs : List Token} (h : InputSpelling f xs) : BeginsNamed xs := by
  cases h
  exact ⟨_, _, _, rfl⟩

/-- Arguments in parentheses, or none. -/
inductive ArgumentsSpelling : List Token → Prop
  | absent : ArgumentsSpelling []
  | present {fs : List FieldDefinition} {items : List (List Token)} (h : List.Forall₂ InputSpelling fs items) :
    ArgumentsSpelling (.openParen :: (items.flatten ++ [.closeParen]))

theorem takes_argumentDefinitions? {xs : List Token} (h : ArgumentsSpelling xs) {next : Option Token}
    (hnext : next ≠ some .openParen) : Takes argumentDefinitions? () xs next := by
  cases h with
  | absent => exact (takes_accept_ne hnext).bind_last takes_return
  | @present fs items h =>
    have hitems : Items inputField fs items := items_of_spelling InputSpelling.named takes_inputField h
    have hmany : Takes (many1 Token.isNameOrString inputField) fs items.flatten (some .closeParen) :=
      (takes_many (fun next => endsItem next = true) hitems rfl rfl).many1
    exact (takes_accept .openParen).bind (hmany.bind (takes_expect .closeParen))

/-- A field of an object or an interface. -/
inductive FieldSpelling : FieldDefinition → List Token → Prop
  | mk {s? n t args deprecation} (hargs : ArgumentsSpelling args) (ht : TypeFits nestingLimit t)
    (hd : DeprecationSpelling deprecation) :
    FieldSpelling ⟨n, t, s?.filter (· ≠ "")⟩
      (spellString s? ++ .name n :: (args ++ .colon :: (spellType t ++ deprecation)))

theorem DeprecationSpelling.head_ne {xs : List Token} (h : DeprecationSpelling xs) {next : Option Token}
    {t : Token} (hat : t ≠ .atSign) (hnext : next ≠ some t) : xs.head?.or next ≠ some t := by
  cases h with
  | absent => exact hnext
  | bare | reason => simpa [eq_comm] using hat

theorem takes_fieldDefinition {f : FieldDefinition} {xs : List Token} (h : FieldSpelling f xs) {next : Option Token}
    (hnext : endsItem next = true) : Takes fieldDefinition f xs next := by
  obtain @⟨s?, n, t, args, deprecation, hargs, ht, hd⟩ := h
  have htail : Takes constantDirectives () deprecation next :=
    takes_constantDirectives hd (ne_of_endsItem hnext rfl) (ne_of_endsItem hnext rfl)
  have htype : Takes ( typeAnnotation constantDirectives) t (.colon :: (spellType t ++ deprecation)) next :=
    takes_typeAnnotation ht htail (hd.head_ne nofun (ne_of_endsItem hnext rfl))
  refine (takes_description? s? rfl).bind ((takes_name n).bind ?_)
  exact (takes_argumentDefinitions? hargs (by simp)).bind (htype.bind_last takes_return)

theorem FieldSpelling.named {f : FieldDefinition} {xs : List Token} (h : FieldSpelling f xs) : BeginsNamed xs := by
  cases h
  exact ⟨_, _, _, rfl⟩

/-- A value of an enum. -/
inductive EnumValueSpelling : EnumValue → List Token → Prop
  | mk {s? n deprecation} (hd : DeprecationSpelling deprecation) :
    EnumValueSpelling ⟨n, s?.filter (· ≠ "")⟩ (spellString s? ++ .name n :: deprecation)

/-- That a value's name is reserved is a fault, and the value is kept. -/
theorem takes_enumValue {v : EnumValue} {xs : List Token} (h : EnumValueSpelling v xs) {next : Option Token}
    (hnext : endsItem next = true) : Takes enumValue v xs next := by
  obtain @⟨s?, n, deprecation, hd⟩ := h
  have htail : Takes (do constantDirectives; return ⟨n, s?.filter (· ≠ "")⟩ : Reader EnumValue)
      ⟨n, s?.filter (· ≠ "")⟩ deprecation next :=
    (takes_constantDirectives hd (ne_of_endsItem hnext rfl) (ne_of_endsItem hnext rfl)).bind_last takes_return
  refine (takes_description? s? rfl).bind ((takes_name n).bind ?_)
  split
  · exact takes_fault.bind_first htail
  · exact htail

theorem EnumValueSpelling.named {v : EnumValue} {xs : List Token} (h : EnumValueSpelling v xs) : BeginsNamed xs := by
  cases h
  exact ⟨_, _, _, rfl⟩

/-! ## Lists of names -/

/-- Names with a separator between them. -/
def spellNames (separator : Token) : List String → List Token
  | [] => []
  | n :: ns => .name n :: (ns.map fun m => [separator, .name m]).flatten

theorem takes_nameList {separator : Token} (hsep : separator.isName = false) (n : String) (ns : List String)
    {next : Option Token} (hnext : next ≠ some separator) :
    Takes (nameList separator) (n :: ns) (spellNames separator (n :: ns)) next := by
  have hname : ∀ m next, Takes (do
      let n ← name?
      if n.isNone then fault
      return n) (some m) [.name m] next :=
    fun m _ => (takes_name? m).bind_last takes_return
  have hmany : Takes (many (· = separator) (do
      skip
      let n ← name?
      if n.isNone then fault
      return n)) (ns.map some) (ns.map fun m => [separator, .name m]).flatten next := by
    refine takes_many (fun _ => True) ?_ trivial ?_
    · rw [List.forall₂_map_left_iff, List.forall₂_map_right_iff, List.forall₂_same]
      exact fun m _ => ⟨by simp, trivial, fun _ _ => takes_skip.bind (hname m _)⟩
    · cases next with
      | none => rfl
      | some t => simpa using hnext
  have hfirst : some (.name n) ≠ some separator := by
    rintro h
    cases h
    cases hsep
  have hlist : Takes (separated separator (do
      let n ← name?
      if n.isNone then fault
      return n)) (some n :: ns.map some) (spellNames separator (n :: ns)) next :=
    (takes_accept_ne hfirst).bind_first ((hname n _).bind (hmany.bind_last takes_return))
  have hnames : (some n :: ns.map some).filterMap id = n :: ns := by simp
  exact hlist.bind_last (hnames ▸ takes_return)

/-- The interfaces of a type, or nothing. -/
def spellInterfaces : List String → List Token
  | [] => []
  | n :: ns => .name "implements" :: spellNames .ampersand (n :: ns)

theorem takes_implements? (names : List String) {next : Option Token} (hname : next ≠ some (.name "implements"))
    (hsep : next ≠ some .ampersand) : Takes implements? names (spellInterfaces names) next := by
  cases names with
  | nil => exact (takes_accept_ne hname).bind_last takes_return
  | cons n ns => exact (takes_accept (.name "implements")).bind (takes_nameList rfl n ns hsep)

theorem takes_unionMembers? (n : String) (ns : List String) {next : Option Token} (hsep : next ≠ some .pipe) :
    Takes unionMembers? (n :: ns) (.equals :: spellNames .pipe (n :: ns)) next :=
  (takes_accept .equals).bind (takes_nameList rfl n ns hsep)

/-! ## Definitions -/

/-- Items between braces. -/
def spellBraces (items : List (List Token)) : List Token := .openBrace :: (items.flatten ++ [.closeBrace])

theorem takes_inBraces? {item : Reader α} {as : List α} {items : List (List Token)} (h : Items item as items)
    (next : Option Token) : Takes (inBraces? item) as (spellBraces items) next := by
  have hmany : Takes (many1 Token.isNameOrString item) as items.flatten (some .closeBrace) :=
    (takes_many (fun next => endsItem next = true) h rfl rfl).many1
  refine takes_peek ?_
  change Takes (if some Token.openBrace = some .openBrace then _ else _) _ _ _
  rw [if_pos rfl]
  exact takes_skip.bind (hmany.bind ((takes_expect _).bind_last takes_return))

end Reader

namespace TypeKind

def keyword : TypeKind → String
  | scalar => "scalar"
  | enumeration => "enum"
  | object => "type"
  | inputObject => "input"
  | interface => "interface"
  | union => "union"

end TypeKind

namespace Reader

/-- The tokens of a type definition after its keyword and its name. -/
inductive BodySpelling (n : String) (description? : Option String) : TypeDefinition → List Token → Prop
  | scalar : BodySpelling n description? (.scalar ⟨n, description?⟩) []
  | enumeration {values items} (h : List.Forall₂ EnumValueSpelling values items) :
    BodySpelling n description? (.enumeration ⟨n, description?, values⟩) (spellBraces items)
  | object {interfaces fields items} (h : List.Forall₂ FieldSpelling fields items) :
    BodySpelling n description? (.object ⟨n, description?, interfaces, fields⟩)
      (spellInterfaces interfaces ++ spellBraces items)
  | interface {interfaces fields items} (h : List.Forall₂ FieldSpelling fields items) :
    BodySpelling n description? (.interface ⟨n, description?, interfaces, fields⟩)
      (spellInterfaces interfaces ++ spellBraces items)
  | union {members} (h : members ≠ []) :
    BodySpelling n description? (.union ⟨n, description?, members⟩) (.equals :: spellNames .pipe members)
  | input {fields items} (h : List.Forall₂ InputSpelling fields items) :
    BodySpelling n description? (.input ⟨n, description?, fields⟩) (spellBraces items)

/-- What may follow a definition: the name or the string that begins the next one, or nothing. -/
def endsDefinition (next : Option Token) : Bool := next.all Token.isNameOrString

theorem ne_of_endsDefinition {next : Option Token} (h : endsDefinition next = true) {t : Token}
    (ht : t.isNameOrString = false) : next ≠ some t := by
  rintro rfl
  exact Bool.false_ne_true (ht.symm.trans h)

theorem takes_typeDefinition {n : String} {description? : Option String} {t : TypeDefinition} {xs : List Token}
    (h : BodySpelling n description? t xs) {next : Option Token} (hnext : endsDefinition next = true) :
    Takes (typeDefinition t.kind description?) t (.name n :: xs) next := by
  have hbare : ∀ {next}, endsDefinition next = true ∨ next = some .openBrace ∨ next = some .equals →
      Takes constantDirectives () [] next := by
    rintro next (hnext | rfl | rfl)
    · exact takes_noDirectives (ne_of_endsDefinition hnext rfl) (ne_of_endsDefinition hnext rfl)
    · exact takes_noDirectives (by simp) (by simp)
    · exact takes_noDirectives (by simp) (by simp)
  have hbrace : Takes constantDirectives () [] (some .openBrace) := hbare (.inr (.inl rfl))
  cases h with
  | scalar => exact (takes_name n).bind ((hbare (.inl hnext)).bind_last takes_return)
  | enumeration h =>
    refine (takes_name n).bind (hbrace.bind_first ?_)
    exact (takes_inBraces? (items_of_spelling EnumValueSpelling.named takes_enumValue h) next).bind_last takes_return
  | object h =>
    refine (takes_name n).bind ((takes_implements? _ (by simp [spellBraces]) (by simp [spellBraces])).bind ?_)
    refine hbrace.bind_first ?_
    exact (takes_inBraces? (items_of_spelling FieldSpelling.named takes_fieldDefinition h) next).bind_last takes_return
  | interface h =>
    refine (takes_name n).bind ((takes_implements? _ (by simp [spellBraces]) (by simp [spellBraces])).bind ?_)
    refine hbrace.bind_first ?_
    exact (takes_inBraces? (items_of_spelling FieldSpelling.named takes_fieldDefinition h) next).bind_last takes_return
  | @union members hmembers =>
    obtain ⟨m, ms, rfl⟩ := List.exists_cons_of_ne_nil hmembers
    refine (takes_name n).bind ((hbare (.inr (.inr rfl))).bind_first ?_)
    exact (takes_unionMembers? m ms (ne_of_endsDefinition hnext rfl)).bind_last takes_return
  | input h =>
    refine (takes_name n).bind (hbrace.bind_first ?_)
    exact (takes_inBraces? (items_of_spelling InputSpelling.named takes_inputField h) next).bind_last takes_return

/-- The tokens of the roots between braces. -/
def spellRoots (roots : List (OperationKind × String)) : List (List Token) :=
  roots.map fun root => [.name root.1.keyword, .colon, .name root.2]

theorem takes_rootType (kind : OperationKind) (n : String) (next : Option Token) :
    Takes rootType (some (kind, n)) [.name kind.keyword, .colon, .name n] next := by
  refine (takes_name _).bind ?_
  cases kind <;> exact (takes_accept .colon).bind ((takes_name? n).bind_last takes_return)

theorem takes_schemaDefinition (roots : List (OperationKind × String)) (next : Option Token) :
    Takes schemaDefinition roots (spellBraces (spellRoots roots)) next := by
  have hmany : Takes (many1 Token.isName rootType) (roots.map some) (spellRoots roots).flatten (some .closeBrace) := by
    refine (takes_many (fun _ => True) ?_ trivial rfl).many1
    rw [spellRoots, List.forall₂_map_left_iff, List.forall₂_map_right_iff, List.forall₂_same]
    exact fun root _ => ⟨rfl, trivial, fun next _ => takes_rootType root.1 root.2 next⟩
  have hroots : Takes (return (roots.map some).filterMap id) roots [] next := by
    simpa using takes_return
  have hbraces : Takes rootTypes? roots (spellBraces (spellRoots roots)) next :=
    (takes_accept .openBrace).bind (hmany.bind ((takes_expect _).bind_last hroots))
  refine (takes_noDirectives (by simp [spellBraces]) (by simp [spellBraces])).bind_first (takes_peek ?_)
  change Takes (if some Token.openBrace = some .openBrace then _ else _) _ _ _
  rw [if_pos rfl]
  exact hbraces

/-- The tokens of a type definition or a schema definition. -/
inductive DefinitionSpelling : Definition → List Token → Prop
  | type {s? n t xs} (h : BodySpelling n (s?.filter (· ≠ "")) t xs) :
    DefinitionSpelling (.type t) (spellString s? ++ .name t.kind.keyword :: .name n :: xs)
  | roots (roots : List (OperationKind × String)) :
    DefinitionSpelling (.roots roots) (.name "schema" :: spellBraces (spellRoots roots))

theorem typeSystem?_keyword (kind : TypeKind) (description? : Option String) :
    typeSystem? kind.keyword description? = some (do
      skip
      return .type (← typeDefinition kind description?)) := by
  cases kind <;> rfl

theorem executable?_keyword (kind : TypeKind) : executable? kind.keyword = none := by
  cases kind <;> rfl

theorem takes_peekSecond {f : Option Token → Reader β} {b : β} {t u : Token} {xs : List Token} {next : Option Token}
    (hf : Takes (f (some u)) b (t :: u :: xs) next) : Takes (peekSecond >>= f) b (t :: u :: xs) next := by
  obtain ⟨clean, hf⟩ := hf
  refine ⟨clean, fun ts rest hts hrest => ?_⟩
  obtain ⟨x, ts, rfl, rfl, hts'⟩ := List.map_eq_cons_iff.1 hts
  obtain ⟨y, ts, rfl, rfl, -⟩ := List.map_eq_cons_iff.1 hts'
  exact hf hts hrest

theorem takes_definition {d : Definition} {xs : List Token} (h : DefinitionSpelling d xs) {next : Option Token}
    (hnext : endsDefinition next = true) : Takes definition d xs next := by
  cases h with
  | roots roots =>
    exact takes_peek (takes_skip.bind ((takes_schemaDefinition roots next).bind_last takes_return))
  | @type s? n t xs h =>
    have htype : Takes (do
        skip
        return .type (← typeDefinition t.kind (s?.filter (· ≠ ""))) : Reader Definition) (.type t)
        (.name t.kind.keyword :: .name n :: xs) next :=
      takes_skip.bind ((takes_typeDefinition h hnext).bind_last takes_return)
    cases s? with
    | none =>
      refine takes_peek ?_
      dsimp only [spellString, Option.map_none, Option.toList_none, List.nil_append, List.head?_cons, Option.some_or]
      rw [executable?_keyword]
      dsimp only
      rw [typeSystem?_keyword]
      exact htype
    | some s =>
      refine takes_peek (takes_peekSecond ?_)
      dsimp only
      rw [typeSystem?_keyword]
      refine (takes_description? (some s) rfl).bind ?_
      rw [typeSystem?_keyword]
      exact htype

theorem DefinitionSpelling.head {d : Definition} {xs : List Token} (h : DefinitionSpelling d xs) :
    xs.head?.any (fun _ => true) = true ∧ endsDefinition xs.head? = true := by
  cases h with
  | roots => exact ⟨rfl, rfl⟩
  | @type s? => cases s? <;> exact ⟨rfl, rfl⟩

/-- **Definitions in a row are read back** from their tokens. -/
theorem definitions_of_spelling {ds : List Definition} {items : List (List Token)}
    (h : List.Forall₂ DefinitionSpelling ds items) {ts : List Lexeme} (hts : tokens ts = items.flatten) :
    (definitions ts).value = ds := by
  have hitems : List.Forall₂ (fun d xs => xs.head?.any (fun _ => true) = true ∧ endsDefinition xs.head? = true ∧
      ∀ next, endsDefinition next = true → Takes definition d xs next) ds items :=
    h.imp fun d xs hd => ⟨hd.head.1, hd.head.2, fun _ => takes_definition hd⟩
  have hmany : Takes definitions ds items.flatten none :=
    takes_many (fun next => endsDefinition next = true) hitems rfl rfl
  exact hmany.whole hts

end Reader

end TypedQuery
