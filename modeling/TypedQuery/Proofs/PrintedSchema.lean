/-
The tokens of printed schema text. `Prints text xs` says that the text adds
the tokens `xs` in front of anything; `PrintsWord text xs` that it does so in
front of what ends a word. Both compose along the printer, so every piece of
schema text has the tokens in which its definition is spelled, and
`Introspection.typeOf?` is what the text of a type is read back as.
-/
import TypedQuery.Proofs.Spelling
import TypedQuery.Proofs.TextTokens

namespace TypedQuery

open Source

/-- In front of anything, the text adds these tokens. -/
def Prints (text : String) (xs : List Token) : Prop := ∀ rest, tokensOf (text.toList ++ rest) = xs ++ tokensOf rest

/-- In front of what ends a word, the text adds these tokens. -/
def PrintsWord (text : String) (xs : List Token) : Prop :=
  ∀ ⦃rest⦄, stops rest = true → tokensOf (text.toList ++ rest) = xs ++ tokensOf rest

section Prints

variable {a b text : String} {xs ys : List Token}

theorem Prints.word (h : Prints text xs) : PrintsWord text xs := fun rest _ => h rest

theorem Prints.whole (h : Prints text xs) : tokensOf text.toList = xs := by
  have hwhole := h []
  rwa [List.append_nil, tokensOf_nil, List.append_nil] at hwhole

theorem Prints.append (ha : Prints a xs) (hb : Prints b ys) : Prints (a ++ b) (xs ++ ys) := by
  intro rest
  rw [String.toList_append, List.append_assoc, ha, hb, List.append_assoc]

theorem Prints.append_word (ha : Prints a xs) (hb : PrintsWord b ys) : PrintsWord (a ++ b) (xs ++ ys) := by
  intro rest hrest
  rw [String.toList_append, List.append_assoc, ha, hb hrest, List.append_assoc]

theorem PrintsWord.append_prints (ha : PrintsWord a xs) (hstops : ∀ rest, stops (b.toList ++ rest) = true)
    (hb : Prints b ys) : Prints (a ++ b) (xs ++ ys) := by
  intro rest
  rw [String.toList_append, List.append_assoc, ha (hstops rest), hb, List.append_assoc]

theorem stops_append {w rest : List Char} (hw : stops w = true) (hrest : stops rest = true) :
    stops (w ++ rest) = true := by
  cases w with
  | nil => exact hrest
  | cons c w => exact hw

theorem PrintsWord.append (ha : PrintsWord a xs) (hstops : stops b.toList = true) (hb : PrintsWord b ys) :
    PrintsWord (a ++ b) (xs ++ ys) := by
  intro rest hrest
  rw [String.toList_append, List.append_assoc, ha (stops_append hstops hrest), hb hrest, List.append_assoc]

theorem prints_empty : Prints "" [] := fun _ => rfl

theorem prints_blank (h : text.toList.all isIgnored = true) : Prints text [] :=
  fun _ => tokensOf_ignored_append (List.all_eq_true.1 h)

/-- A punctuator between blanks. -/
theorem prints_spaced {p : Token} {c : Char} (hp : Token.ofPunctuator? c = some p)
    (htext : text.toList = [' ', c, ' ']) : Prints text [p] := by
  intro rest
  rw [htext]
  change tokensOf (' ' :: c :: ' ' :: rest) = _
  rw [tokensOf_ignored rfl, tokensOf_punctuator hp, tokensOf_ignored rfl]
  rfl

/-- The end of a line ends a word. -/
theorem PrintsWord.line (h : PrintsWord text xs) : Prints (text ++ "\n") xs := by
  have hend : Prints "\n" [] := prints_blank (by decide)
  have hline := h.append_prints (fun _ => rfl) hend
  rwa [List.append_nil] at hline

theorem printsWord_name {n : String} (h : isName n = true) : PrintsWord n [.name n] := fun _ => tokensOf_name h

theorem prints_join {lines : List String} {items : List (List Token)} (h : List.Forall₂ Prints lines items) :
    Prints (String.join lines) items.flatten := by
  intro rest
  rw [String.toList_join]
  induction h with
  | nil => rfl
  | cons hline _ ih => rw [List.flatMap_cons, List.append_assoc, hline, ih, List.flatten_cons, List.append_assoc]

/-- Words with a separator between them. -/
theorem printsWord_intercalate {separator : String} (hstops : ∀ rest, stops (separator.toList ++ rest) = true)
    (hseparator : Prints separator ys) {words : List String} {items : List (List Token)}
    (h : List.Forall₂ PrintsWord words items) : PrintsWord (separator.intercalate words) (ys.intercalate items) := by
  intro rest hrest
  rw [String.toList_intercalate]
  induction h with
  | nil => rfl
  | @cons w xs words items hword htail ih =>
    cases htail with
    | nil => simpa using hword hrest
    | cons =>
      rw [List.map_cons, List.map_cons, List.intercalate_cons_cons, List.intercalate_cons_cons, List.append_assoc,
        List.append_assoc, hword (hstops _), hseparator, ← List.map_cons, ih, List.append_assoc, List.append_assoc]

end Prints

namespace Introspection

open Reader

/-! ## Types and values -/

/-- What a type reference stands for. -/
def typeRefOf (j : Json) : TypeRef :=
  match _h : (j.get "kind").string? with
  | some "NON_NULL" => .nonNull (typeRefOf (j.get "ofType"))
  | some "LIST" => .list (typeRefOf (j.get "ofType"))
  | _ => .named ((j.get "name").string?.getD "Unknown")
termination_by sizeOf j
decreasing_by all_goals exact Json.sizeOf_get_of_string _h _

section TypeRef

variable {j : Json}

theorem typeRef_nonNull (h : (j.get "kind").string? = some "NON_NULL") :
    typeRef j = typeRef (j.get "ofType") ++ "!" ∧ typeRefOf j = .nonNull (typeRefOf (j.get "ofType")) := by
  constructor
  · rw [typeRef]
    split <;> simp_all
  · rw [typeRefOf]
    split <;> simp_all

theorem typeRef_list (h : (j.get "kind").string? = some "LIST") :
    typeRef j = "[" ++ typeRef (j.get "ofType") ++ "]" ∧ typeRefOf j = .list (typeRefOf (j.get "ofType")) := by
  constructor
  · rw [typeRef]
    split <;> simp_all
  · rw [typeRefOf]
    split <;> simp_all

theorem typeRef_named (hnonNull : (j.get "kind").string? ≠ some "NON_NULL")
    (hlist : (j.get "kind").string? ≠ some "LIST") :
    typeRef j = (j.get "name").string?.getD "Unknown" ∧
      typeRefOf j = .named ((j.get "name").string?.getD "Unknown") := by
  constructor
  · rw [typeRef]
    split <;> simp_all
  · rw [typeRefOf]
    split <;> simp_all

end TypeRef

/-- What is written is what the reference stands for. -/
theorem typeRef_eq (j : Json) : typeRef j = (typeRefOf j).render := by
  induction j using typeRefOf.induct with
  | case1 j hkind ih => rw [(typeRef_nonNull hkind).1, (typeRef_nonNull hkind).2, ih, TypeRef.render]
  | case2 j hkind ih => rw [(typeRef_list hkind).1, (typeRef_list hkind).2, ih, TypeRef.render]
  | case3 j hnonNull hlist =>
    have hnamed := typeRef_named (fun h => hnonNull h) (fun h => hlist h)
    rw [hnamed.1, hnamed.2, TypeRef.render]

theorem printsWord_render {t : TypeRef} (h : isName t.baseName = true) : PrintsWord t.render (spellType t) := by
  induction t with
  | named n => exact printsWord_name h
  | list e ih =>
    have hopen : Prints "[" [.openBracket] := fun _ => tokensOf_punctuator rfl
    have hclose : Prints "]" [.closeBracket] := fun _ => tokensOf_punctuator rfl
    exact ((hopen.append_word (ih h)).append_prints (fun _ => rfl) hclose).word
  | nonNull t ih =>
    have hmark : Prints "!" [.bang] := fun _ => tokensOf_punctuator rfl
    exact ((ih h).append_prints (fun _ => rfl) hmark).word

/-- A text that is one token after the other, from its first character to its last. -/
def Lexed (d : String) : Prop := ∃ xs : List Lexeme, scan d.toList = xs.map some ∧ written xs = d.toList

theorem Lexed.printsWord {d : String} (h : Lexed d) : PrintsWord d (tokensOf d.toList) := by
  obtain ⟨xs, hscan, hwritten⟩ := h
  have htokens : ∀ {rest}, stops rest = true → tokensOf (d.toList ++ rest) = xs.map (·.token) ++ tokensOf rest :=
    tokensOf_lexed hscan hwritten
  have hwhole : tokensOf d.toList = xs.map (·.token) := by
    have hend : tokensOf (d.toList ++ []) = xs.map (·.token) ++ tokensOf [] := htokens rfl
    rwa [List.append_nil, tokensOf_nil, List.append_nil] at hend
  rw [hwhole]
  exact fun rest hrest => htokens hrest

/-- The tokens of a default value, if there is one. -/
def defaultTokens? (j : Json) : Option (List Token) := (nonEmpty? j "defaultValue").map fun d => tokensOf d.toList

theorem printsWord_defaultValue {j : Json} (h : ∀ d ∈ nonEmpty? j "defaultValue", Lexed d) :
    PrintsWord (defaultValue j) (spellDefault (defaultTokens? j)) ∧ stops (defaultValue j).toList = true := by
  unfold defaultValue defaultTokens?
  cases hd : nonEmpty? j "defaultValue" with
  | none => exact ⟨prints_empty.word, rfl⟩
  | some d =>
    have hequals : Prints " = " [.equals] := prints_spaced rfl rfl
    refine ⟨hequals.append_word (h d hd).printsWord, ?_⟩
    dsimp only
    rw [String.toList_append]
    rfl

theorem prints_colon : Prints ": " [.colon] := by
  intro rest
  change tokensOf (':' :: ' ' :: rest) = _
  rw [tokensOf_punctuator rfl, tokensOf_ignored rfl]
  rfl

/-- The tokens of an argument or a field of an input object, without a description. -/
def spellInput (j : Json) : List Token :=
  .name (text j "name") :: .colon :: (spellType (typeRefOf (j.get "type")) ++ spellDefault (defaultTokens? j))

theorem printsWord_inputValue {j : Json} (hname : isName (text j "name") = true)
    (htype : isName (typeRefOf (j.get "type")).baseName = true) (hdefault : ∀ d ∈ nonEmpty? j "defaultValue", Lexed d) :
    PrintsWord (inputValue j) (spellInput j) := by
  obtain ⟨hprints, hstops⟩ := printsWord_defaultValue hdefault
  have hnamed : Prints (text j "name" ++ ": ") [.name (text j "name"), .colon] :=
    (printsWord_name hname).append_prints (fun _ => rfl) prints_colon
  have htyped := hnamed.append_word (printsWord_render htype)
  rw [← typeRef_eq] at htyped
  exact htyped.append hstops hprints

theorem prints_margin : Prints margin [] := prints_blank (by decide)

theorem prints_inputLine {j : Json} {s? : Option String} (hdescription : Prints (description margin j) (spellString s?))
    (hinput : PrintsWord (inputValue j) (spellInput j)) : Prints (inputLine j) (spellString s? ++ spellInput j) := by
  have hline := ((hdescription.append prints_margin).append_word hinput).line
  rwa [List.append_nil] at hline

/-! ## Descriptions and deprecation -/

/-- A text that the quote written after it closes, or that is written as a block. -/
def Closed (d : String) : Prop :=
  (d.contains '\n' || d.contains '"') = true ∨ ∃ value, QuotedString.Closes d.toList value

/-- A text without quotes, backslashes and line breaks. -/
def Plain (d : String) : Prop := ∀ c ∈ d.toList, c ≠ '"' ∧ c ≠ '\\' ∧ c ≠ '\n' ∧ c ≠ '\r'

/-- A quoted text with something after it that is no quote. -/
theorem prints_quoted {w : List Char} {value : Option (List Char)} (hclosed : QuotedString.Closes w value)
    (hw : w.head? ≠ some '"') {suffix : String} {xs : List Token} (hsuffix : Prints suffix xs)
    (hhead : suffix.toList.head?.any (· ≠ '"') = true) :
    Prints ("\"" ++ String.ofList w ++ ("\"" ++ suffix)) (spellString (value.map String.ofList) ++ xs) := by
  intro rest
  have hblock : (w ++ '"' :: (suffix.toList ++ rest)).take 2 ≠ ['"', '"'] := by
    intro htake
    cases w with
    | cons c w =>
      obtain ⟨rfl, -⟩ := List.cons.inj htake
      exact hw rfl
    | nil =>
      cases hsuffix : suffix.toList with
      | nil => simp [hsuffix] at hhead
      | cons c cs => simp_all
  have hread := tokensOf_quoted (hclosed (suffix.toList ++ rest)) hblock
  have htext : ("\"" ++ String.ofList w ++ ("\"" ++ suffix)).toList ++ rest =
      '"' :: (w ++ '"' :: (suffix.toList ++ rest)) := by
    simp
  rw [htext, hread, hsuffix, spellString, Option.map_map, List.append_assoc]
  rfl

/-- Triple quotes stand on lines of their own. -/
theorem prints_tripleQuoted {indent : String} (hindent : ∀ c ∈ indent.toList, c = ' ') (d : String) :
    Prints ("\"\"\"\n" ++ String.ofList (escapeTripleQuotes d.toList) ++ "\n" ++ indent ++ "\"\"\"\n")
      (spellString (some (String.ofList (BlockString.value ('\n' :: d.toList ++ '\n' :: indent.toList))))) := by
  intro rest
  let w := '\n' :: escapeTripleQuotes d.toList ++ '\n' :: indent.toList ++ ['"', '"', '"']
  have hclosing := BlockString.content_closing indent.toList hindent ('\n' :: rest)
  rw [List.cons_append] at hclosing
  have hescaped := BlockString.content_escapeTripleQuotes d.toList (c := '\n') (by decide) hclosing
  have hclosed : BlockString.content (w ++ '\n' :: rest) =
      some ('\n' :: d.toList ++ '\n' :: indent.toList, w.length) := by
    simp only [w, List.cons_append, List.append_assoc, List.nil_append] at hescaped ⊢
    rw [BlockString.content.eq_3 _ _ (by simp) (by simp), hescaped]
    simp only [Option.map_some, List.length_cons, List.length_append, List.length_nil]
  have htext : ("\"\"\"\n" ++ String.ofList (escapeTripleQuotes d.toList) ++ "\n" ++ indent ++
      "\"\"\"\n").toList ++ rest = '"' :: '"' :: '"' :: (w ++ '\n' :: rest) := by
    simp [w]
  rw [htext, tokensOf_block hclosed, tokensOf_ignored rfl]
  rfl

theorem prints_indent {indent : String} (hindent : ∀ c ∈ indent.toList, c = ' ') : Prints indent [] :=
  prints_blank (List.all_eq_true.2 fun c hc => by
    rw [hindent c hc]
    rfl)

theorem description_quoted {indent : String} {j : Json} {d : String} (hd : nonEmpty? j "description" = some d)
    (hquoted : ¬ (d.contains '\n' || d.contains '"') = true) :
    description indent j = indent ++ "\"" ++ d ++ "\"\n" := by
  unfold description
  rw [hd]
  exact if_neg hquoted

theorem prints_quotedDescription {indent : String} (hindent : ∀ c ∈ indent.toList, c = ' ') {j : Json} {d : String}
    (hd : nonEmpty? j "description" = some d) (hquoted : ¬ (d.contains '\n' || d.contains '"') = true)
    {value : Option (List Char)} (hclosed : QuotedString.Closes d.toList value) :
    Prints (description indent j) (spellString (value.map String.ofList)) := by
  have hhead : d.toList.head? ≠ some '"' := by
    intro hhead
    simp [String.contains_char_eq, List.mem_of_head? hhead] at hquoted
  have hline : Prints "\n" [] := prints_blank (by decide)
  have hprints := (prints_indent hindent).append (prints_quoted hclosed hhead hline rfl)
  rw [String.ofList_toList, List.append_nil, List.nil_append, show "\"" ++ "\n" = "\"\n" from rfl] at hprints
  rw [description_quoted hd hquoted]
  simpa only [String.append_assoc] using hprints

/-- A description between triple quotes is one token. -/
theorem prints_blockDescription {indent : String} (hindent : ∀ c ∈ indent.toList, c = ' ') {j : Json} {d : String}
    (hd : nonEmpty? j "description" = some d) (hblock : (d.contains '\n' || d.contains '"') = true) :
    Prints (description indent j)
      (spellString (some (String.ofList (BlockString.value ('\n' :: d.toList ++ '\n' :: indent.toList))))) := by
  have hprints := (prints_indent hindent).append (prints_tripleQuoted hindent d)
  rw [List.nil_append] at hprints
  unfold description
  rw [hd]
  dsimp only
  rw [if_pos hblock]
  simpa only [String.append_assoc] using hprints

/-- A description is at most one token. -/
theorem prints_description {indent : String} (hindent : ∀ c ∈ indent.toList, c = ' ') {j : Json}
    (h : ∀ d ∈ nonEmpty? j "description", Closed d) : ∃ s?, Prints (description indent j) (spellString s?) := by
  cases hd : nonEmpty? j "description" with
  | none =>
    unfold description
    rw [hd]
    exact ⟨none, prints_empty⟩
  | some d =>
    by_cases hblock : (d.contains '\n' || d.contains '"') = true
    · exact ⟨_, prints_blockDescription hindent hd hblock⟩
    · obtain ⟨value, hclosed⟩ := (h d hd).resolve_left hblock
      exact ⟨_, prints_quotedDescription hindent hd hblock hclosed⟩

/-- A plain description is read as it is. -/
theorem prints_plainDescription {indent : String} (hindent : ∀ c ∈ indent.toList, c = ' ') {j : Json}
    (h : ∀ d ∈ nonEmpty? j "description", Plain d) :
    Prints (description indent j) (spellString (nonEmpty? j "description")) := by
  cases hd : nonEmpty? j "description" with
  | none =>
    unfold description
    rw [hd]
    exact prints_empty
  | some d =>
    have hquoted : ¬ (d.contains '\n' || d.contains '"') = true := by
      rw [String.contains_char_eq, String.contains_char_eq]
      have hfeed : '\n' ∉ d.toList := fun hc => (h d hd _ hc).2.2.1 rfl
      have hquote : '"' ∉ d.toList := fun hc => (h d hd _ hc).1 rfl
      simp [hfeed, hquote]
    have hprints := prints_quotedDescription hindent hd hquoted (QuotedString.closes_plain (h d hd))
    rwa [Option.map_some, String.ofList_toList] at hprints

theorem head?_escapeQuotes (text : List Char) : (escapeQuotes text).head? ≠ some '"' := by
  cases text with
  | nil => simp [escapeQuotes]
  | cons c text =>
    rw [escapeQuotes, List.flatMap_cons]
    split
    next => simp
    next hc => simp_all

/-- The directive that deprecates is one, whatever the reason. -/
theorem printsWord_deprecation (j : Json) :
    (∃ xs, DeprecationSpelling xs ∧ PrintsWord (deprecation j) xs) ∧ stops (deprecation j).toList = true := by
  have hdirective : Prints " @" [.atSign] := by
    intro rest
    change tokensOf (' ' :: '@' :: rest) = _
    rw [tokensOf_ignored rfl, tokensOf_punctuator rfl]
    rfl
  have hbare : PrintsWord (" @" ++ "deprecated") [.atSign, .name "deprecated"] :=
    hdirective.append_word (printsWord_name (by decide))
  unfold deprecation
  split
  next =>
    split
    next reason _ =>
      obtain ⟨value, hclosed⟩ := QuotedString.closes_escapeQuotes reason.toList
      have hopen : Prints "(" [.openParen] := fun rest => tokensOf_punctuator rfl
      have hclose : Prints ")" [.closeParen] := fun rest => tokensOf_punctuator rfl
      have hname : PrintsWord "reason" [.name "reason"] := printsWord_name (by decide)
      have hargument := hopen.append (hname.append_prints (fun _ => rfl) prints_colon)
      have hvalue := prints_quoted hclosed (head?_escapeQuotes _) hclose rfl
      have hall := (hbare.append_prints (fun _ => rfl) hargument).append hvalue
      have htext : " @deprecated(reason: \"" = " @" ++ "deprecated" ++ ("(" ++ ("reason" ++ ": ")) ++ "\"" := rfl
      refine ⟨⟨_, .reason (value.map String.ofList), ?_⟩, ?_⟩
      · rw [htext, show "\")" = "\"" ++ ")" from rfl]
        simp only [String.append_assoc] at hall ⊢
        exact hall.word
      · rw [String.toList_append, String.toList_append]
        rfl
    next => exact ⟨⟨_, .bare, hbare⟩, rfl⟩
  next => exact ⟨⟨_, .absent, prints_empty.word⟩, rfl⟩

/-! ## Lines -/

/-- A reference to a named type, with no mark on a mark, that nests no deeper than is read. -/
structure ReferenceFits (j : Json) : Prop where
  name : isName (typeRefOf j).baseName = true
  fits : TypeFits nestingLimit (typeRefOf j)

/-- An argument or a field of an input object whose default value, if there is one, is `literal`. -/
structure InputFits (literal : String → Prop) (j : Json) : Prop where
  name : isName (text j "name") = true
  type : ReferenceFits (j.get "type")
  default : ∀ d ∈ nonEmpty? j "defaultValue", literal d

/-- A field with its arguments. -/
structure FieldFits (literal : String → Prop) (j : Json) : Prop where
  name : isName (text j "name") = true
  type : ReferenceFits (j.get "type")
  args : ∀ a ∈ list j "args", InputFits literal a

/-- A constant whose brackets nest no deeper than `depth`, from the first character of the text to the last. -/
structure Literal (depth : Nat) (d : String) : Prop where
  lexed : Lexed d
  constant : Constant depth (tokensOf d.toList)

theorem InputFits.prints {literal : String → Prop} {j : Json} (h : InputFits literal j)
    (hliteral : ∀ d, literal d → Lexed d) : PrintsWord (inputValue j) (spellInput j) :=
  printsWord_inputValue h.name h.type.name fun d hd => hliteral d (h.default d hd)

/-- What an item with a name and a type is read back as; `describe` says what describes it. -/
def fieldOf (describe : String → Json → Option String) (j : Json) : FieldDefinition :=
  ⟨text j "name", typeRefOf (j.get "type"), describe margin j⟩

theorem InputFits.spelling {j : Json} (h : InputFits (Literal nestingLimit) j) (s? : Option String) :
    InputSpelling ⟨text j "name", typeRefOf (j.get "type"), s?.filter (· ≠ "")⟩ (spellString s? ++ spellInput j) := by
  refine .mk h.type.fits fun xs hxs => ?_
  obtain ⟨d, hd, rfl⟩ := Option.map_eq_some_iff.1 hxs
  exact (h.default d hd).constant

theorem intercalate_nil {α : Type} (items : List (List α)) : List.intercalate [] items = items.flatten := by
  induction items with
  | nil => rfl
  | cons xs items ih =>
    cases items with
    | nil => simp
    | cons ys items =>
      rw [List.intercalate_cons_cons, ih, List.append_nil]
      rfl

theorem prints_arguments {j : Json} (h : ∀ a ∈ list j "args", InputFits (Literal nestingLimit) a) :
    ∃ xs, ArgumentsSpelling xs ∧ Prints (arguments j) xs ∧ stops (arguments j).toList = true := by
  unfold arguments
  split
  next => exact ⟨_, .absent, prints_empty, rfl⟩
  next =>
    have hseparator : Prints ", " [] := prints_blank (by decide)
    have hwords : List.Forall₂ PrintsWord ((list j "args").map inputValue) ((list j "args").map spellInput) := by
      rw [List.forall₂_map_left_iff, List.forall₂_map_right_iff, List.forall₂_same]
      exact fun a ha => (h a ha).prints fun d hd => hd.lexed
    have hspelled : List.Forall₂ InputSpelling ((list j "args").map (fieldOf fun _ _ => none))
        ((list j "args").map spellInput) := by
      rw [List.forall₂_map_left_iff, List.forall₂_map_right_iff, List.forall₂_same]
      exact fun a ha => (h a ha).spelling none
    have hopen : Prints "(" [.openParen] := fun rest => tokensOf_punctuator rfl
    have hclose : Prints ")" [.closeParen] := fun rest => tokensOf_punctuator rfl
    have hinside := hopen.append_word (printsWord_intercalate (fun _ => rfl) hseparator hwords)
    have hall := hinside.append_prints (fun _ => rfl) hclose
    rw [intercalate_nil] at hall
    refine ⟨_, .present hspelled, hall, ?_⟩
    rw [String.toList_append, String.toList_append]
    rfl

theorem prints_fieldLine {j : Json} (h : FieldFits (Literal nestingLimit) j) {s? : Option String}
    (hdescription : Prints (description margin j) (spellString s?)) :
    ∃ xs, FieldSpelling ⟨text j "name", typeRefOf (j.get "type"), s?.filter (· ≠ "")⟩ xs ∧ Prints (fieldLine j) xs := by
  obtain ⟨args, hargs, hprintsArgs, hstopsArgs⟩ := prints_arguments h.args
  obtain ⟨⟨deprecation, hspelled, hdeprecation⟩, hstops⟩ := printsWord_deprecation j
  have hnamed := (hdescription.append prints_margin).append_word (printsWord_name h.name)
  have htyped := ((hnamed.append hstopsArgs hprintsArgs.word).append_prints (fun _ => rfl) prints_colon).append_word
    (printsWord_render h.type.name)
  rw [← typeRef_eq] at htyped
  have hline := (htyped.append hstops hdeprecation).line
  refine ⟨_, .mk hargs h.type.fits hspelled, ?_⟩
  simp only [List.append_nil, List.append_assoc, List.cons_append, List.nil_append] at hline
  exact hline

theorem prints_enumValueLine {j : Json} (hname : isName (text j "name") = true) {s? : Option String}
    (hdescription : Prints (description margin j) (spellString s?)) :
    ∃ xs, EnumValueSpelling ⟨text j "name", s?.filter (· ≠ "")⟩ xs ∧ Prints (enumValueLine j) xs := by
  obtain ⟨⟨deprecation, hspelled, hdeprecation⟩, hstops⟩ := printsWord_deprecation j
  refine ⟨_, .mk hspelled, ?_⟩
  have hnamed := (hdescription.append prints_margin).append_word (printsWord_name hname)
  have hline := (hnamed.append hstops hdeprecation).line
  simp only [List.append_nil, List.append_assoc, List.cons_append, List.nil_append] at hline
  exact hline

/-! ## Definitions -/

/-- Items that are spelled and printed one by one are so together. -/
theorem exists_items {α : Type} {spelling : α → List Token → Prop} {meaning : Json → α} {line : Json → String}
    {l : List Json}
    (h : ∀ j ∈ l, ∃ xs, spelling (meaning j) xs ∧ Prints (line j) xs) :
    ∃ items, List.Forall₂ spelling (l.map meaning) items ∧ List.Forall₂ Prints (l.map line) items := by
  induction l with
  | nil => exact ⟨[], .nil, .nil⟩
  | cons j l ih =>
    obtain ⟨⟨xs, hspelled, hprints⟩, hmore⟩ := List.forall_mem_cons.1 h
    obtain ⟨items, hitems, hlines⟩ := ih hmore
    exact ⟨xs :: items, .cons hspelled hitems, .cons hprints hlines⟩

/-- Lines between braces. -/
theorem prints_block {head : String} {xs : List Token} (hhead : PrintsWord head xs) {lines : List String}
    {items : List (List Token)} (hlines : List.Forall₂ Prints lines items) :
    Prints (block head lines) (xs ++ spellBraces items) := by
  have hopen : Prints " \x7b\n" [.openBrace] := by
    intro rest
    change tokensOf (' ' :: '\x7b' :: '\n' :: rest) = _
    rw [tokensOf_ignored rfl, tokensOf_punctuator rfl, tokensOf_ignored rfl]
    rfl
  have hclose : Prints "\x7d\n\n" [.closeBrace] := by
    intro rest
    change tokensOf ('\x7d' :: '\n' :: '\n' :: rest) = _
    rw [tokensOf_punctuator rfl, tokensOf_ignored rfl, tokensOf_ignored rfl]
    rfl
  have hall := ((hhead.append_prints (fun _ => rfl) hopen).append (prints_join hlines)).append hclose
  simp only [List.append_assoc] at hall
  exact hall

theorem prints_keyword {w : String} (hw : isName w = true) : Prints (w ++ " ") [.name w] :=
  (printsWord_name hw).append_prints (fun _ => rfl) (prints_blank (by decide))

theorem intercalate_names (separator : Token) (names : List String) :
    List.intercalate [separator] (names.map fun n => [.name n]) = spellNames separator names := by
  induction names with
  | nil => rfl
  | cons n names ih =>
    cases names with
    | nil => rfl
    | cons m names =>
      rw [List.map_cons] at ih
      rw [List.map_cons, List.map_cons, List.intercalate_cons_cons, ih]
      rfl

theorem printsWord_names {names : List String} (h : ∀ n ∈ names, isName n = true) {separator : String}
    (hstops : ∀ rest, stops (separator.toList ++ rest) = true) {t : Token} (hseparator : Prints separator [t]) :
    PrintsWord (separator.intercalate names) (spellNames t names) := by
  have hwords : List.Forall₂ PrintsWord names (names.map fun n => [.name n]) := by
    rw [List.forall₂_map_right_iff, List.forall₂_same]
    exact fun n hn => printsWord_name (h n hn)
  rw [← intercalate_names]
  exact printsWord_intercalate hstops hseparator hwords

theorem printsWord_interfaces {j : Json} (h : ∀ n ∈ names j "interfaces", isName n = true) :
    PrintsWord (interfaces j) (spellInterfaces (names j "interfaces")) ∧ stops (interfaces j).toList = true := by
  unfold interfaces
  dsimp only
  cases hall : names j "interfaces" with
  | nil => exact ⟨prints_empty.word, rfl⟩
  | cons n ns =>
    have hblank : Prints " " [] := prints_blank (by decide)
    have hkeyword := hblank.append (prints_keyword (w := "implements") (by decide))
    have hseparator : Prints " & " [.ampersand] := prints_spaced rfl rfl
    rw [hall] at h
    refine ⟨hkeyword.append_word (printsWord_names h (fun _ => rfl) hseparator), ?_⟩
    rw [if_neg (by simp), String.toList_append]
    rfl

/-- Everything that describes an item is `describable`. -/
def Described (describable : String → Prop) (j : Json) : Prop := ∀ d ∈ nonEmpty? j "description", describable d

/-- The definition of a type with names where names belong, references that fit, and at least one member of
a union; `describable` is what descriptions are, `literal` what default values are. -/
structure DefinitionFits (describable literal : String → Prop) (t : Json) : Prop where
  name : isName (text t "name") = true
  description : Described describable t
  values : text t "kind" = "ENUM" → ∀ v ∈ list t "enumValues", isName (text v "name") = true ∧ Described describable v
  inputs : text t "kind" = "INPUT_OBJECT" →
    ∀ f ∈ list t "inputFields", InputFits literal f ∧ Described describable f
  interfaces : text t "kind" = "OBJECT" ∨ text t "kind" = "INTERFACE" → ∀ n ∈ names t "interfaces", isName n = true
  fields : text t "kind" = "OBJECT" ∨ text t "kind" = "INTERFACE" →
    ∀ f ∈ list t "fields", FieldFits literal f ∧ Described describable f
  members : text t "kind" = "UNION" →
    names t "possibleTypes" ≠ [] ∧ ∀ n ∈ names t "possibleTypes", isName n = true

/-- What is written to describe an item is read as `describe` says. -/
def Describes (describable : String → Prop) (describe : String → Json → Option String) : Prop :=
  ∀ indent : String, (∀ c ∈ indent.toList, c = ' ') → ∀ j, Described describable j →
    ∃ s?, Prints (description indent j) (spellString s?) ∧ s?.filter (· ≠ "") = describe indent j

/-- What an enum value is read back as. -/
def valueOf (describe : String → Json → Option String) (j : Json) : EnumValue := ⟨text j "name", describe margin j⟩

/-- What the definition of a type is read back as; nothing is written for a built-in scalar or an unknown kind. -/
def typeOf? (describe : String → Json → Option String) (t : Json) : Option TypeDefinition :=
  let name := text t "name"
  match text t "kind" with
  | "SCALAR" => if name ∈ builtinScalars then none else some (.scalar ⟨name, describe "" t⟩)
  | "ENUM" => some (.enumeration ⟨name, describe "" t, (list t "enumValues").map (valueOf describe)⟩)
  | "INPUT_OBJECT" => some (.input ⟨name, describe "" t, (list t "inputFields").map (fieldOf describe)⟩)
  | "OBJECT" => some (.object ⟨name, describe "" t, names t "interfaces", (list t "fields").map (fieldOf describe)⟩)
  | "INTERFACE" =>
    some (.interface ⟨name, describe "" t, names t "interfaces", (list t "fields").map (fieldOf describe)⟩)
  | "UNION" => some (.union ⟨name, describe "" t, names t "possibleTypes"⟩)
  | _ => none

section Definitions

variable {describable : String → Prop} {describe : String → Json → Option String}

theorem margin_blank : ∀ c ∈ margin.toList, c = ' ' := by simp [margin]

theorem exists_fields (hdescribe : Describes describable describe) {l : List Json}
    (h : ∀ f ∈ l, FieldFits (Literal nestingLimit) f ∧ Described describable f) :
    ∃ items, List.Forall₂ FieldSpelling (l.map (fieldOf describe)) items ∧
      List.Forall₂ Prints (l.map fieldLine) items := by
  refine exists_items fun f hf => ?_
  obtain ⟨s?, hprints, hread⟩ := hdescribe margin margin_blank f (h f hf).2
  rw [fieldOf, ← hread]
  exact prints_fieldLine (h f hf).1 hprints

theorem exists_inputs (hdescribe : Describes describable describe) {l : List Json}
    (h : ∀ f ∈ l, InputFits (Literal nestingLimit) f ∧ Described describable f) :
    ∃ items, List.Forall₂ InputSpelling (l.map (fieldOf describe)) items ∧
      List.Forall₂ Prints (l.map inputLine) items := by
  refine exists_items fun f hf => ?_
  obtain ⟨s?, hprints, hread⟩ := hdescribe margin margin_blank f (h f hf).2
  rw [fieldOf, ← hread]
  exact ⟨_, (h f hf).1.spelling s?, prints_inputLine hprints ((h f hf).1.prints fun _ hd => hd.lexed)⟩

theorem exists_values (hdescribe : Describes describable describe) {l : List Json}
    (h : ∀ v ∈ l, isName (text v "name") = true ∧ Described describable v) :
    ∃ items, List.Forall₂ EnumValueSpelling (l.map (valueOf describe)) items ∧
      List.Forall₂ Prints (l.map enumValueLine) items := by
  refine exists_items fun v hv => ?_
  obtain ⟨s?, hprints, hread⟩ := hdescribe margin margin_blank v (h v hv).2
  rw [valueOf, ← hread]
  exact prints_enumValueLine (h v hv).1 hprints

/-- The keyword of a definition and its name. -/
theorem printsWord_head {n : String} (hn : isName n = true) (w : String) {keyword : String}
    (hkeyword : keyword = w ++ " ") (hw : isName w = true) : PrintsWord (keyword ++ n) [.name w, .name n] :=
  hkeyword ▸ (prints_keyword hw).append_word (printsWord_name hn)

theorem prints_end : Prints "\n\n" [] := prints_blank (by decide)

theorem prints_scalar {n : String} (hn : isName n = true) :
    Prints ("scalar " ++ n ++ "\n\n") [.name "scalar", .name n] :=
  (printsWord_head hn "scalar" rfl (by decide)).append_prints (fun _ => rfl) prints_end

theorem prints_union {n : String} (hn : isName n = true) {members : List String}
    (hmembers : ∀ m ∈ members, isName m = true) :
    Prints ("union " ++ n ++ " = " ++ " | ".intercalate members ++ "\n\n")
      (.name "union" :: .name n :: .equals :: spellNames .pipe members) := by
  have hequals : Prints " = " [.equals] := prints_spaced rfl rfl
  have hseparator : Prints " | " [.pipe] := prints_spaced rfl rfl
  have hnamed : PrintsWord ("union " ++ n) _ := printsWord_head hn "union" rfl (by decide)
  have hlist := (hnamed.append_prints (fun _ => rfl) hequals).append_word
    (printsWord_names hmembers (fun _ => rfl) hseparator)
  have hunion := hlist.append_prints (fun _ => rfl) prints_end
  rwa [List.append_nil] at hunion

/-- One definition under its description. -/
theorem prints_described {t : Json} {s? : Option String} (hdescription : Prints (description "" t) (spellString s?))
    (hread : s?.filter (· ≠ "") = describe "" t) {d : TypeDefinition} {xs : List Token} {body : String}
    (hbody : BodySpelling (text t "name") (describe "" t) d xs)
    (hprints : Prints body (.name d.kind.keyword :: .name (text t "name") :: xs)) :
    ∃ items, List.Forall₂ DefinitionSpelling ((some d).toList.map .type) items ∧
      Prints (description "" t ++ body) items.flatten := by
  rw [← hread] at hbody
  refine ⟨[_], .cons (.type hbody) .nil, ?_⟩
  rw [List.flatten_singleton]
  exact hdescription.append hprints

/-- The text of a type is spelled as what it is read back as. -/
theorem prints_typeDefinition (hdescribe : Describes describable describe) {t : Json}
    (h : DefinitionFits describable (Literal nestingLimit) t) :
    ∃ items, List.Forall₂ DefinitionSpelling ((typeOf? describe t).toList.map .type) items ∧
      Prints (typeDefinition t) items.flatten := by
  obtain ⟨s?, hdescription, hread⟩ := hdescribe "" (by simp) t h.description
  unfold typeOf?
  dsimp only
  split
  next hkind =>
    simp only [typeDefinition, hkind]
    split
    next => exact ⟨[], .nil, prints_empty⟩
    next =>
      have hdefinition := prints_described hdescription hread .scalar (prints_scalar h.name)
      simpa only [String.append_assoc] using hdefinition
  next hkind =>
    simp only [typeDefinition, hkind]
    obtain ⟨items, hspelled, hlines⟩ := exists_values hdescribe (h.values hkind)
    have hnamed : PrintsWord ("enum " ++ text t "name") _ := printsWord_head h.name "enum" rfl (by decide)
    exact prints_described hdescription hread (.enumeration hspelled) (prints_block hnamed hlines)
  next hkind =>
    simp only [typeDefinition, hkind]
    obtain ⟨items, hspelled, hlines⟩ := exists_inputs hdescribe (h.inputs hkind)
    have hnamed : PrintsWord ("input " ++ text t "name") _ := printsWord_head h.name "input" rfl (by decide)
    exact prints_described hdescription hread (.input hspelled) (prints_block hnamed hlines)
  next hkind =>
    simp only [typeDefinition, hkind]
    obtain ⟨items, hspelled, hlines⟩ := exists_fields hdescribe (h.fields (.inl hkind))
    obtain ⟨hinterfaces, hstops⟩ := printsWord_interfaces (h.interfaces (.inl hkind))
    have hnamed : PrintsWord ("type " ++ text t "name") _ := printsWord_head h.name "type" rfl (by decide)
    exact prints_described hdescription hread (.object hspelled)
      (prints_block (hnamed.append hstops hinterfaces) hlines)
  next hkind =>
    simp only [typeDefinition, hkind]
    obtain ⟨items, hspelled, hlines⟩ := exists_fields hdescribe (h.fields (.inr hkind))
    obtain ⟨hinterfaces, hstops⟩ := printsWord_interfaces (h.interfaces (.inr hkind))
    have hnamed : PrintsWord ("interface " ++ text t "name") _ := printsWord_head h.name "interface" rfl (by decide)
    exact prints_described hdescription hread (.interface hspelled)
      (prints_block (hnamed.append hstops hinterfaces) hlines)
  next hkind =>
    simp only [typeDefinition, hkind]
    obtain ⟨hmembers, hnames⟩ := h.members hkind
    have hdefinition := prints_described hdescription hread (.union hmembers) (prints_union h.name hnames)
    simpa only [String.append_assoc] using hdefinition
  next hscalar henum hinput hobject hinterface hunion =>
    have hnothing : typeDefinition t = "" := by
      unfold typeDefinition
      dsimp only
      split <;> first | rfl | contradiction
    rw [hnothing]
    exact ⟨[], .nil, prints_empty⟩

theorem prints_typeDefinitions (hdescribe : Describes describable describe) {l : List Json}
    (h : ∀ t ∈ l, DefinitionFits describable (Literal nestingLimit) t) :
    ∃ items, List.Forall₂ DefinitionSpelling ((l.filterMap (typeOf? describe)).map .type) items ∧
      Prints (String.join (l.map typeDefinition)) items.flatten := by
  induction l with
  | nil => exact ⟨[], .nil, prints_empty⟩
  | cons t l ih =>
    obtain ⟨ht, hl⟩ := List.forall_mem_cons.1 h
    obtain ⟨first, hfirst, hprintsFirst⟩ := prints_typeDefinition hdescribe ht
    obtain ⟨more, hmore, hprintsMore⟩ := ih hl
    have hcons : (t :: l).filterMap (typeOf? describe) =
        (typeOf? describe t).toList ++ l.filterMap (typeOf? describe) := by
      cases ht : typeOf? describe t <;> simp [ht]
    refine ⟨first ++ more, ?_, ?_⟩
    · rw [hcons, List.map_append]
      exact List.rel_append hfirst hmore
    · rw [List.map_cons, String.join_cons, List.flatten_append]
      exact hprintsFirst.append hprintsMore

end Definitions

/-! ## Roots -/

/-- The member that names the root of a kind of operation. -/
def rootKey : OperationKind → String
  | .query => "queryType"
  | .mutation => "mutationType"
  | .subscription => "subscriptionType"

/-- The name that is given to a root. -/
def rootName? (schema : Json) (kind : OperationKind) : Option String := ((schema.get (rootKey kind)).get "name").string?

/-- The roots that have a name. -/
def namedRoots (schema : Json) : List (OperationKind × String) :=
  [.query, .mutation, .subscription].filterMap fun kind => (rootName? schema kind).map fun n => (kind, n)

theorem roots_eq (schema : Json) :
    roots schema = (namedRoots schema).map fun root => (root.1.keyword, root.2, RootTypes.get {} root.1) := by
  rw [roots, rootMembers, namedRoots, List.map_filterMap]
  simp only [rootName?, Option.map_map]
  rfl

/-- The definition that is written for the roots. -/
def rootDefinitions (schema : Json) : List Definition :=
  if (namedRoots schema).all fun root => root.2 = RootTypes.get {} root.1 then [] else [.roots (namedRoots schema)]

theorem schemaDefinition_eq (schema : Json) : schemaDefinition schema =
    if (namedRoots schema).all fun root => root.2 = RootTypes.get {} root.1 then ""
    else block "schema" ((namedRoots schema).map fun root => margin ++ root.1.keyword ++ ": " ++ root.2 ++ "\n") := by
  rw [schemaDefinition, roots_eq, List.all_map, List.map_map]
  rfl

theorem prints_schemaDefinition {schema : Json} (h : ∀ root ∈ namedRoots schema, isName root.2 = true) :
    ∃ items, List.Forall₂ DefinitionSpelling (rootDefinitions schema) items ∧
      Prints (schemaDefinition schema) items.flatten := by
  rw [schemaDefinition_eq, rootDefinitions]
  split
  next => exact ⟨[], .nil, prints_empty⟩
  next =>
    have hlines : List.Forall₂ Prints
        ((namedRoots schema).map fun root => margin ++ root.1.keyword ++ ": " ++ root.2 ++ "\n")
        (spellRoots (namedRoots schema)) := by
      rw [spellRoots, List.forall₂_map_left_iff, List.forall₂_map_right_iff, List.forall₂_same]
      intro root hroot
      have hkeyword : isName root.1.keyword = true := by cases root.1 <;> decide
      have hnamed := (prints_margin.append_word (printsWord_name hkeyword)).append_prints (fun _ => rfl) prints_colon
      exact (hnamed.append_word (printsWord_name (h root hroot))).line
    have hschema : PrintsWord "schema" [.name "schema"] := printsWord_name (by decide)
    refine ⟨[_], .cons (.roots (namedRoots schema)) .nil, ?_⟩
    rw [List.flatten_singleton]
    exact prints_block hschema hlines

/-- The conditions under which schema text is read back, with `describable` descriptions and `literal` default
values: the written types have distinct names, and the built-in scalars are the only types with their names. -/
structure SchemaFits (describable literal : String → Prop) (schema : Json) : Prop where
  types : ∀ t ∈ list schema "types", isMeta (text t "name") = false → DefinitionFits describable literal t
  roots : ∀ kind, ∀ n ∈ rootName? schema kind, isName n = true
  distinct : (list schema "types").Pairwise fun t u => text t "name" ≠ text u "name"
  builtin : ∀ t ∈ list schema "types", text t "name" ∈ builtinScalars → text t "kind" = "SCALAR"

theorem mem_writtenTypes {schema t : Json} :
    t ∈ writtenTypes schema ↔ t ∈ list schema "types" ∧ isMeta (text t "name") = false := by
  simp [writtenTypes]

/-- **Schema text is read back** as the definitions of its roots and its types, in the order in which they are
written. -/
theorem definitions_toSdl {describable : String → Prop} {describe : String → Json → Option String}
    (hdescribe : Describes describable describe) {schema : Json}
    (h : SchemaFits describable (Literal nestingLimit) schema) :
    (definitions (lexemes (toSdl schema).toList)).value =
      rootDefinitions schema ++ ((writtenTypes schema).filterMap (typeOf? describe)).map .type := by
  have hroots : ∀ root ∈ namedRoots schema, isName root.2 = true := by
    intro root hroot
    obtain ⟨kind, -, hname⟩ := List.mem_filterMap.1 hroot
    obtain ⟨n, hn, rfl⟩ := Option.map_eq_some_iff.1 hname
    exact h.roots kind n hn
  obtain ⟨rootItems, hrootSpelling, hrootPrints⟩ := prints_schemaDefinition hroots
  have htypes : ∀ t ∈ writtenTypes schema, DefinitionFits describable (Literal nestingLimit) t :=
    fun t ht => h.types t (mem_writtenTypes.1 ht).1 (mem_writtenTypes.1 ht).2
  obtain ⟨items, hspelling, hprints⟩ := prints_typeDefinitions hdescribe htypes
  have htext : Prints (toSdl schema) (rootItems ++ items).flatten := by
    rw [List.flatten_append]
    exact hrootPrints.append hprints
  exact definitions_of_spelling (List.rel_append hrootSpelling hspelling) htext.whole

end Introspection

end TypedQuery
