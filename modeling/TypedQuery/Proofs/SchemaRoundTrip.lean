/-
Schema text keeps the schema. What is read back from the text of an
introspected schema are the built-in scalars, then its other types sorted by
kind and name, each as it was given (`parse_toSdl`), if descriptions are plain
and default values nest no deeper than they are read. The text of a deeper
default value ends the definition that it stands in (`deepInput_cut`).
-/
import TypedQuery.Proofs.PrintedSchema

namespace TypedQuery

/-- The place of a kind among the kinds. -/
def TypeKind.rank : TypeKind → Nat
  | scalar => 0
  | enumeration => 1
  | inputObject => 2
  | interface => 3
  | object => 4
  | union => 5

/-- By kind, then by name. -/
def TypeDefinition.Precedes (t u : TypeDefinition) : Prop :=
  t.kind.rank < u.kind.rank ∨ t.kind.rank = u.kind.rank ∧ t.name < u.name

namespace Schema

theorem foldl_define {s : Schema} {ts : List TypeDefinition} (h : (s.types ++ ts).Pairwise fun t u => t.name ≠ u.name) :
    (ts.map Definition.type).foldl add s = { s with types := s.types ++ ts } := by
  induction ts generalizing s with
  | nil => rw [List.append_nil]; rfl
  | cons t ts ih =>
    have hnew : s.define t = { s with types := s.types ++ [t] } := by
      refine if_neg ?_
      rw [List.any_eq_true]
      rintro ⟨u, hu, hname⟩
      exact (List.pairwise_append.1 h).2.2 u hu t List.mem_cons_self (of_decide_eq_true hname)
    have hassoc : s.types ++ [t] ++ ts = s.types ++ t :: ts := List.append_assoc ..
    rw [List.map_cons, List.foldl_cons]
    change (ts.map Definition.type).foldl add (s.define t) = _
    rw [hnew, ih (by rwa [hassoc])]
    simp only [hassoc]

end Schema

namespace Introspection

open Source

variable {describe : String → Json → Option String} {schema t u : Json} {d e : TypeDefinition}

/-- A type has the name and the place of its kind that its description gives. -/
theorem typeOf?_spec (h : typeOf? describe t = some d) :
    d.name = text t "name" ∧ d.kind.rank = kindRank (text t "kind") := by
  unfold typeOf? at h
  dsimp only at h
  split at h
  next hkind =>
    rw [hkind]
    split at h
    next => cases h
    next =>
      cases h
      exact ⟨rfl, rfl⟩
  case h_7 => cases h
  all_goals
    next hkind =>
      rw [hkind]
      cases h
      exact ⟨rfl, rfl⟩

theorem typeOf?_scalar (h : typeOf? describe t = some d) (hkind : text t "kind" = "SCALAR") :
    d.name ∉ builtinScalars := by
  rw [(typeOf?_spec h).1]
  simp only [typeOf?, hkind] at h
  split at h
  next => cases h
  next hname => exact hname

/-- The types that are neither part of introspection nor of every schema, as they are given. -/
def definedTypes (schema : Json) : List TypeDefinition :=
  ((list schema "types").filter fun t => !isMeta (text t "name")).filterMap
    (typeOf? fun _ j => nonEmpty? j "description")

theorem writtenTypes_perm (schema : Json) :
    (writtenTypes schema).Perm ((list schema "types").filter fun t => !isMeta (text t "name")) :=
  List.mergeSort_perm _ _

theorem typeLe_iff : typeLe t u = true ↔ kindRank (text t "kind") < kindRank (text u "kind") ∨
    kindRank (text t "kind") = kindRank (text u "kind") ∧ text t "name" ≤ text u "name" := by
  simp [typeLe]

theorem writtenTypes_sorted (schema : Json) : (writtenTypes schema).Pairwise fun t u => typeLe t u = true := by
  refine List.pairwise_mergeSort ?_ ?_ _
  · intro t u v htu huv
    rw [typeLe_iff] at htu huv ⊢
    rcases htu with hlt | ⟨heq, hle⟩
    · left
      rcases huv with hlt' | ⟨heq', -⟩ <;> omega
    · rcases huv with hlt' | ⟨heq', hle'⟩
      · left
        omega
      · exact .inr ⟨heq.trans heq', String.le_trans hle hle'⟩
  · intro t u
    rw [Bool.or_eq_true, typeLe_iff, typeLe_iff]
    rcases Nat.lt_trichotomy (kindRank (text t "kind")) (kindRank (text u "kind")) with hlt | heq | hlt
    · exact .inl (.inl hlt)
    · rcases String.le_total (text t "name") (text u "name") with hle | hle
      · exact .inl (.inr ⟨heq, hle⟩)
      · exact .inr (.inr ⟨heq.symm, hle⟩)
    · exact .inr (.inl hlt)

/-- The roots that are read back. -/
def rootTypesOf (schema : Json) : RootTypes where
  query := (rootName? schema .query).getD "Query"
  mutation := (rootName? schema .mutation).getD "Mutation"
  subscription := (rootName? schema .subscription).getD "Subscription"

theorem foldl_namedRoots (schema : Json) :
    (namedRoots schema).foldl (fun roots (kind, name) => roots.set kind name) {} = rootTypesOf schema := by
  unfold namedRoots rootTypesOf
  cases hq : rootName? schema .query <;> cases hm : rootName? schema .mutation <;>
    cases hs : rootName? schema .subscription <;> simp [hq, hm, hs, RootTypes.set]

/-- Roots that have their usual names need not be written. -/
theorem rootTypesOf_usual (h : (namedRoots schema).all fun root => root.2 = RootTypes.get {} root.1) :
    rootTypesOf schema = {} := by
  have husual : ∀ kind, (rootName? schema kind).getD (RootTypes.get {} kind) = RootTypes.get {} kind := by
    intro kind
    cases hname : rootName? schema kind with
    | none => rfl
    | some n =>
      have hroot : (kind, n) ∈ namedRoots schema :=
        List.mem_filterMap.2 ⟨kind, by cases kind <;> simp, by rw [hname]; rfl⟩
      exact of_decide_eq_true (List.all_eq_true.1 h _ hroot)
  exact RootTypes.mk.injEq .. ▸ ⟨husual .query, husual .mutation, husual .subscription⟩

theorem foldl_rootDefinitions (schema : Json) :
    (rootDefinitions schema).foldl Schema.add .builtin = { Schema.builtin with roots := rootTypesOf schema } := by
  unfold rootDefinitions
  split
  next husual => rw [rootTypesOf_usual husual]; rfl
  next => rw [List.foldl_cons, List.foldl_nil, ← foldl_namedRoots]; rfl

theorem writtenTypes_distinct {describable literal : String → Prop} (h : SchemaFits describable literal schema) :
    (writtenTypes schema).Pairwise fun t u => text t "name" ≠ text u "name" :=
  (writtenTypes_perm schema).symm.pairwise (h.distinct.filter _) Ne.symm

/-- What is read back from schema text, if descriptions are read as `describe` says. -/
theorem parse_toSdl_eq {describable : String → Prop} (hdescribe : Describes describable describe)
    (h : SchemaFits describable (Literal Reader.nestingLimit) schema) :
    Schema.parse (toSdl schema) =
      ⟨Schema.builtin.types ++ (writtenTypes schema).filterMap (typeOf? describe), rootTypesOf schema, .default⟩ := by
  have hbuiltin : ∀ t ∈ Schema.builtin.types, t.name ∈ builtinScalars := by decide
  have hnew : ∀ d ∈ (writtenTypes schema).filterMap (typeOf? describe), d.name ∉ builtinScalars := by
    intro d hd hname
    obtain ⟨t, ht, hof⟩ := List.mem_filterMap.1 hd
    have hkind := h.builtin t (mem_writtenTypes.1 ht).1 ((typeOf?_spec hof).1 ▸ hname)
    exact typeOf?_scalar hof hkind hname
  have hdistinct : (Schema.builtin.types ++ (writtenTypes schema).filterMap (typeOf? describe)).Pairwise
      fun t u => t.name ≠ u.name := by
    refine List.pairwise_append.2 ⟨by decide, ?_, fun t ht u hu hname => hnew u hu (hname ▸ hbuiltin t ht)⟩
    rw [List.pairwise_filterMap]
    refine (writtenTypes_distinct h).imp fun hne d hd e he hname => hne ?_
    rw [← (typeOf?_spec hd).1, ← (typeOf?_spec he).1, hname]
  rw [Schema.parse, definitions_toSdl hdescribe h, List.foldl_append, foldl_rootDefinitions]
  exact Schema.foldl_define hdistinct

theorem described_none {describable : String → Prop} {j : Json} (h : nonEmpty? j "description" = none) :
    Described describable j := by
  intro d hd
  rw [h] at hd
  cases hd

/-- A name is a constant. -/
theorem literal_name {n : String} (h : isName n = true) (depth : Nat) : Literal depth n := by
  have htokens : tokensOf n.toList = [.name n] := by
    have hname : tokensOf (n.toList ++ []) = .name n :: tokensOf [] := tokensOf_name h rfl
    rwa [List.append_nil, tokensOf_nil] at hname
  refine ⟨⟨[⟨[], .name n, n.toList⟩], ?_, by simp⟩, ?_⟩
  · obtain ⟨c, w, hw, hc, hall⟩ := isName_iff.1 h
    have hscan : scan ([] ++ c :: w) = _ := scan_blank (blank_of_all rfl (ofPunctuator?_nameStart hc).2)
    have htoken := scanToken_name hc hall (show stops [] = true from rfl)
    rw [List.append_nil] at htoken
    rw [List.nil_append, htoken] at hscan
    rw [hw, hscan, List.drop_length, scan_nil rfl, List.take_length, ← hw, String.ofList_toList]
    rfl
  · rw [htokens]
    cases depth <;> exact .name n

theorem describes_plain : Describes Plain fun _ j => nonEmpty? j "description" := by
  intro indent hindent j hj
  refine ⟨_, prints_plainDescription hindent hj, ?_⟩
  unfold nonEmpty?
  rw [Option.filter_filter]
  simp

/-- **Schema text keeps the schema**: what is read back are the built-in scalars, then the other types that
are not part of introspection, each as it was given, sorted by kind and name, and the roots. -/
theorem parse_toSdl (h : SchemaFits Plain (Literal Reader.nestingLimit) schema) :
    ∃ ts, (Schema.parse (toSdl schema)).types = Schema.builtin.types ++ ts ∧ ts.Perm (definedTypes schema) ∧
      ts.Pairwise TypeDefinition.Precedes ∧
      ∀ kind, (Schema.parse (toSdl schema)).rootType kind = (rootName? schema kind).getD (RootTypes.get {} kind) := by
  rw [parse_toSdl_eq describes_plain h]
  refine ⟨_, rfl, (writtenTypes_perm schema).filterMap _, ?_, fun kind => by cases kind <;> rfl⟩
  rw [List.pairwise_filterMap]
  refine ((writtenTypes_sorted schema).and (writtenTypes_distinct h)).imp ?_
  rintro t u ⟨hle, hne⟩ d hd e he
  rw [TypeDefinition.Precedes, (typeOf?_spec hd).1, (typeOf?_spec hd).2, (typeOf?_spec he).1, (typeOf?_spec he).2]
  refine (typeLe_iff.1 hle).imp_right fun ⟨hrank, hname⟩ => ⟨hrank, ?_⟩
  by_contra hlt
  exact hne (String.le_antisymm hname (String.not_lt.1 hlt))

/-- A deprecated field with an argument. -/
def booksField : Json :=
  .object [("name", .string "books"), ("isDeprecated", .bool true),
    ("args", .array [.object [("name", .string "sorted"), ("defaultValue", .string "true"),
      ("type", .object [("kind", .string "SCALAR"), ("name", .string "Boolean")])]]),
    ("type", .object [("kind", .string "LIST"),
      ("ofType", .object [("kind", .string "ENUM"), ("name", .string "Book")])])]

def shelfObject : Json :=
  .object [("kind", .string "OBJECT"), ("name", .string "Shelf"), ("description", .string "All there is."),
    ("fields", .array [booksField])]

def bookEnum : Json :=
  .object [("kind", .string "ENUM"), ("name", .string "Book"),
    ("enumValues", .array [.object [("name", .string "ULYSSES")]])]

/-- An enum and an object, which is the root of queries under a name that is not the usual one. -/
def shelf : Json :=
  .object [("queryType", .object [("name", .string "Shelf")]), ("types", .array [shelfObject, bookEnum])]

theorem booksField_fits : FieldFits (Literal Reader.nestingLimit) booksField := by
  refine ⟨by decide, ?_, ?_⟩
  · have htype : typeRefOf (booksField.get "type") = .list (.named "Book") := by
      rw [(typeRef_list rfl).2, (typeRef_named (by decide) (by decide)).2]
      rfl
    exact ⟨by rw [htype]; decide, by rw [htype]; trivial⟩
  · intro a ha
    obtain rfl := List.mem_singleton.1 (show a ∈ [_] from ha)
    refine ⟨by decide, ?_, fun d hd => ?_⟩
    · have htype := (typeRef_named (j := .object [("kind", .string "SCALAR"), ("name", .string "Boolean")])
        (by decide) (by decide)).2
      exact ⟨htype ▸ by decide, htype ▸ trivial⟩
    · obtain rfl : d = "true" := (Option.mem_some.1 hd).symm
      exact literal_name (by decide) _

theorem shelf_fits {describable : String → Prop} (h : describable "All there is.") :
    SchemaFits describable (Literal Reader.nestingLimit) shelf := by
  have htypes : ∀ t ∈ list shelf "types", t = shelfObject ∨ t = bookEnum := by
    intro t ht
    simpa using (show t ∈ [shelfObject, bookEnum] from ht)
  have hobject : DefinitionFits describable (Literal Reader.nestingLimit) shelfObject := by
    refine ⟨by decide, fun d hd => ?_, fun h => absurd h (by decide), fun h => absurd h (by decide),
      fun _ n hn => absurd hn List.not_mem_nil, fun _ f hf => ?_, fun h => absurd h (by decide)⟩
    · obtain rfl : d = "All there is." := (Option.mem_some.1 hd).symm
      exact h
    · obtain rfl := List.mem_singleton.1 (show f ∈ [booksField] from hf)
      exact ⟨booksField_fits, described_none rfl⟩
  have henum : DefinitionFits describable (Literal Reader.nestingLimit) bookEnum := by
    refine ⟨by decide, described_none rfl, fun _ v hv => ?_, fun h => absurd h (by decide),
      fun h => absurd h (by decide), fun h => absurd h (by decide), fun h => absurd h (by decide)⟩
    obtain rfl := List.mem_singleton.1 (show v ∈ [_] from hv)
    exact ⟨by decide, described_none rfl⟩
  refine ⟨fun t ht _ => ?_, ?_, ?_, fun t ht hname => ?_⟩
  · rcases htypes t ht with rfl | rfl
    · exact hobject
    · exact henum
  · rintro (_ | _ | _) n hn
    · obtain rfl : n = "Shelf" := (Option.mem_some.1 hn).symm
      decide
    all_goals cases hn
  · have hne : text shelfObject "name" ≠ text bookEnum "name" := by decide
    exact List.pairwise_pair.2 hne
  · rcases htypes t ht with rfl | rfl <;> exact absurd hname (by decide)

theorem shelf_kept : SchemaFits Plain (Literal Reader.nestingLimit) shelf ∧
    ∃ ts, (Schema.parse (toSdl shelf)).types = Schema.builtin.types ++ ts ∧ ts.Perm (definedTypes shelf) ∧
      ts.Pairwise TypeDefinition.Precedes ∧
      ∀ kind, (Schema.parse (toSdl shelf)).rootType kind = (rootName? shelf kind).getD (RootTypes.get {} kind) := by
  have hfits : SchemaFits Plain (Literal Reader.nestingLimit) shelf := shelf_fits (by simp [Plain])
  exact ⟨hfits, parse_toSdl hfits⟩

end Introspection

/-! ## Default values that nest too deep -/

namespace Reader

/-- An item that takes no token is the last one. -/
theorem takes_many_stuck {α : Type} {starts : Token → Bool} {item : Reader α} {a : α} {next : Option Token}
    (hstarts : next.any starts = true) (hitem : Takes item a [] next) : Takes (many starts item) [a] [] next := by
  obtain ⟨clean, hitem⟩ := hitem
  refine ⟨clean, fun ts rest hts hrest => ?_⟩
  obtain rfl := List.map_eq_nil_iff.1 hts
  exact many_stuck (hrest ▸ hstarts) (hitem rfl hrest)

theorem takes_expect_ne {t : Token} {next : Option Token} (h : next ≠ some t) : Takes (expect t) () [] next :=
  (takes_accept_ne h).bind_last takes_fault

/-- The tokens of an empty list under brackets, with fewer brackets closed than opened. -/
def brackets (opened closed : Nat) : List Token :=
  List.replicate opened .openBracket ++ List.replicate closed .closeBracket

theorem brackets_succ (opened closed : Nat) :
    brackets (opened + 1) (closed + 1) = .openBracket :: (brackets opened closed ++ [.closeBracket]) := by
  simp [brackets, List.replicate_succ (n := opened), List.replicate_succ' (n := closed)]

variable {inside : Bool} {next : Option Token}

/-- A list is opened, then what `nested` makes of the items, then it is closed. -/
theorem takes_valueOver_list {nested : Reader Unit} {items : List Unit} {xs ys : List Token}
    (hitems : Takes (many (· ≠ .closeBracket) nested) items xs (ys.head?.or next))
    (hclose : Takes (expect .closeBracket) () ys next) :
    Takes (valueOver .constant inside nested) () (.openBracket :: (xs ++ ys)) next :=
  takes_peek (takes_skip.bind (hitems.bind hclose))

/-- Where nothing may nest, the brackets are taken one by one. -/
theorem takes_brackets_many (opened : Nat) :
    ∃ items, Takes (many (· ≠ .closeBracket) (value .constant true 0)) items (brackets (opened + 1) 1)
      (some .closeBracket) := by
  induction opened with
  | zero =>
    have hempty : Takes (value .constant true 0) () (brackets 1 1) (some .closeBracket) :=
      takes_valueOver_list (takes_many_nil rfl) (takes_expect _)
    exact ⟨_, List.append_nil _ ▸ takes_many_cons rfl hempty (takes_many_nil (by simp))⟩
  | succ opened ih =>
    obtain ⟨items, hitems⟩ := ih
    have hone : Takes (value .constant true 0) () [.openBracket] (some .openBracket) :=
      takes_valueOver_list (takes_many_stuck (by simp) takes_fault) (takes_expect_ne (by simp))
    have hmore := takes_many_cons rfl hone hitems
    exact ⟨_, hmore⟩

/-- Of brackets that nest too deep, a value takes all that are opened, and closes as many as it may nest. -/
theorem takes_brackets (depth : Nat) {opened : Nat} (h : depth + 2 ≤ opened) :
    Takes (value .constant inside (depth + 1)) () (brackets opened (depth + 2)) next := by
  induction depth generalizing opened inside next with
  | zero =>
    obtain ⟨opened, rfl⟩ := Nat.exists_eq_add_of_le' h
    obtain ⟨items, hitems⟩ := takes_brackets_many opened
    rw [brackets_succ]
    exact takes_valueOver_list hitems (takes_expect _)
  | succ depth ih =>
    obtain ⟨opened, rfl⟩ := Nat.exists_eq_add_of_le' (Nat.le_of_succ_le h)
    have hinner : Takes (value .constant true (depth + 1)) () (brackets (opened + depth + 1) (depth + 2))
        (some .closeBracket) :=
      ih (by omega)
    have hhead : (brackets (opened + depth + 1) (depth + 2)).head?.any (· ≠ .closeBracket) = true := by
      rw [brackets_succ]
      rfl
    have hitems := takes_many_cons hhead hinner (takes_many_nil (by simp))
    rw [List.append_nil] at hitems
    rw [show opened + (depth + 1 + 1) = opened + depth + 1 + 1 by omega, brackets_succ]
    exact takes_valueOver_list hitems (takes_expect _)

/-- A default value that brackets are left of ends its field, and the definition that the field stands in. -/
theorem takes_cutInput {n field type : String} {xs : List Token}
    (hvalue : Takes (value .constant false nestingLimit) () xs (some .closeBracket)) :
    Takes definition (.type (.input ⟨n, none, [⟨field, .named type, none⟩]⟩))
      (.name "input" :: .name n :: .openBrace :: .name field :: .colon :: .name type :: .equals :: xs)
      (some .closeBracket) := by
  have hdefault : Takes (defaultValue? nestingLimit) true (.equals :: xs) (some .closeBracket) :=
    (takes_accept .equals).bind (hvalue.bind_last takes_return)
  have htail : Takes (do let _ ← defaultValue? nestingLimit; constantDirectives) () (.equals :: xs)
      (some .closeBracket) :=
    hdefault.bind_last (takes_noDirectives (by simp) (by simp))
  have hinput : Takes inputField ⟨field, .named type, none⟩ (.name field :: .colon :: .name type :: .equals :: xs)
      (some .closeBracket) := by
    have htype := takes_typeAnnotation (t := .named type) trivial htail (by simp)
    exact (takes_description? none rfl).bind_first ((takes_name field).bind (htype.bind_last takes_return))
  have hfields : Takes (many Token.isNameOrString inputField) [⟨field, .named type, none⟩]
      (.name field :: .colon :: .name type :: .equals :: xs ++ []) (some .closeBracket) :=
    takes_many_cons rfl hinput (takes_many_nil rfl)
  rw [List.append_nil] at hfields
  have hbraces : Takes (inBraces? inputField) [⟨field, .named type, none⟩]
      (.openBrace :: .name field :: .colon :: .name type :: .equals :: xs) (some .closeBracket) := by
    refine takes_peek ?_
    change Takes (if some Token.openBrace = some .openBrace then _ else _) _ _ _
    rw [if_pos rfl]
    exact takes_skip.bind (hfields.many1.bind_last ((takes_expect_ne (by simp)).bind_last takes_return))
  have htype : Takes (typeDefinition .inputObject none) (.input ⟨n, none, [⟨field, .named type, none⟩]⟩)
      (.name n :: .openBrace :: .name field :: .colon :: .name type :: .equals :: xs) (some .closeBracket) :=
    (takes_name n).bind ((takes_noDirectives (by simp) (by simp)).bind_first (hbraces.bind_last takes_return))
  exact takes_peek (takes_skip.bind (htype.bind_last takes_return))

/-- A token that begins no definition is passed over. -/
theorem takes_stray {t : Token} (ht : t ∈ [.closeBracket, .colon, .closeBrace] ∨ t ∈ [.name "second", .name "Json"])
    {next : Option Token} : Takes definition .other [t] next := by
  have hstray : Takes stray .other [t] next := (takes_fault.bind_first takes_skip).bind_last takes_return
  simp only [List.mem_cons, List.not_mem_nil, or_false] at ht
  rcases ht with (rfl | rfl | rfl) | rfl | rfl <;> exact takes_peek hstray

theorem constant_brackets (depth : Nat) : Constant depth (brackets (depth + 1) (depth + 1)) := by
  induction depth with
  | zero =>
    have hempty : ConstantOver (fun _ => False)
        (.openBracket :: (([] : List (List Token)).flatten ++ [.closeBracket])) :=
      .list (by simp)
    exact hempty
  | succ depth ih =>
    have hlist : ConstantOver (Constant depth)
        (.openBracket :: ([brackets (depth + 1) (depth + 1)].flatten ++ [.closeBracket])) :=
      .list (by simpa using ih)
    rwa [List.flatten_singleton, ← brackets_succ] at hlist

end Reader

namespace Introspection

open Source Reader

/-- The text of an empty list under brackets. -/
def nestedList (depth : Nat) : String := String.ofList (List.replicate depth '[' ++ List.replicate depth ']')

/-- The lexemes of opening, then closing brackets. -/
def bracketLexemes (opened closed : Nat) : List Lexeme :=
  List.replicate opened ⟨[], .openBracket, ['[']⟩ ++ List.replicate closed ⟨[], .closeBracket, [']']⟩

theorem scan_brackets (opened closed : Nat) :
    scan (List.replicate opened '[' ++ List.replicate closed ']') = (bracketLexemes opened closed).map some := by
  have hscan : ∀ {c : Char} {t : Token} (rest : List Char), Token.ofPunctuator? c = some t →
      afterIgnored? false c = none → scan (c :: rest) = some ⟨[], t, [c]⟩ :: scan rest := by
    intro c t rest hc hplain
    have hread : scan ([] ++ c :: rest) = _ := scan_blank (blank_of_all rfl hplain)
    rw [List.nil_append] at hread
    rw [hread, scanToken, hc]
    rfl
  induction opened with
  | zero =>
    induction closed with
    | zero => exact scan_nil rfl
    | succ closed ih =>
      have hmore : scan (List.replicate closed ']') = (bracketLexemes 0 closed).map some := ih
      change scan (']' :: List.replicate closed ']') = _
      rw [hscan _ rfl rfl, hmore]
      rfl
  | succ opened ih =>
    change scan ('[' :: (List.replicate opened '[' ++ List.replicate closed ']')) = _
    rw [hscan _ rfl rfl, ih]
    rfl

theorem lexed_nestedList (depth : Nat) : Lexed (nestedList depth) := by
  refine ⟨bracketLexemes depth depth, ?_, ?_⟩
  · rw [nestedList, String.toList_ofList, scan_brackets]
  · have hwritten : ∀ (n : Nat) (t : Token) (c : Char),
        written (List.replicate n ⟨[], t, [c]⟩) = List.replicate n c := by
      intro n t c
      induction n with
      | zero => rfl
      | succ n ih => rw [List.replicate_succ, List.replicate_succ, written_cons, ih]; rfl
    rw [nestedList, String.toList_ofList, bracketLexemes, written_append, hwritten, hwritten]

theorem tokensOf_nestedList (depth : Nat) : tokensOf (nestedList depth).toList = brackets depth depth := by
  rw [nestedList, String.toList_ofList, tokensOf, lexemes, scan_brackets]
  simp [bracketLexemes, brackets]

def jsonScalar : Json := .object [("kind", .string "SCALAR"), ("name", .string "Json")]

def deepField : Json :=
  .object [("name", .string "first"), ("type", jsonScalar), ("defaultValue", .string (nestedList 600))]

def plainField : Json := .object [("name", .string "second"), ("type", jsonScalar)]

def deepOptions : Json :=
  .object [("kind", .string "INPUT_OBJECT"), ("name", .string "Options"),
    ("inputFields", .array [deepField, plainField])]

/-- An input object with two fields, of which the first has a deep default value. -/
def deepInput : Json := .object [("types", .array [jsonScalar, deepOptions])]

theorem typeRefOf_jsonScalar : typeRefOf jsonScalar = .named "Json" := (typeRef_named (by decide) (by decide)).2

theorem nonEmpty?_deepField : nonEmpty? deepField "defaultValue" = some (nestedList 600) := by
  have hne : nestedList 600 ≠ "" := by
    intro h
    have hlist := congrArg String.toList h
    rw [nestedList, String.toList_ofList] at hlist
    cases hlist
  change (some (nestedList 600)).filter (· ≠ "") = _
  simp [hne]

theorem writtenTypes_deepInput : writtenTypes deepInput = [jsonScalar, deepOptions] := by
  have hall : ((list deepInput "types").filter fun t => !isMeta (text t "name")) = [jsonScalar, deepOptions] := rfl
  rw [writtenTypes, hall]
  exact List.mergeSort_of_pairwise (by simp; decide)

theorem jsonScalar_fits (literal : String → Prop) : DefinitionFits Plain literal jsonScalar where
  name := by decide
  description := described_none rfl
  values h := absurd h (by decide)
  inputs h := absurd h (by decide)
  interfaces h := absurd h (by decide)
  fields h := absurd h (by decide)
  members h := absurd h (by decide)

theorem deepInput_fits : SchemaFits Plain (fun d => ∃ depth, Literal depth d) deepInput := by
  have htype : ReferenceFits jsonScalar := ⟨by rw [typeRefOf_jsonScalar]; decide, by rw [typeRefOf_jsonScalar]; trivial⟩
  have hfields : ∀ f ∈ list deepOptions "inputFields",
      InputFits (fun d => ∃ depth, Literal depth d) f ∧ Described Plain f := by
    intro f hf
    obtain rfl | rfl : f = deepField ∨ f = plainField := by simpa using (show f ∈ [deepField, plainField] from hf)
    · refine ⟨⟨by decide, htype, fun d hd => ⟨599, ?_⟩⟩, described_none rfl⟩
      rw [nonEmpty?_deepField] at hd
      obtain rfl := Option.mem_some.1 hd
      exact ⟨lexed_nestedList 600, tokensOf_nestedList 600 ▸ constant_brackets 599⟩
    · exact ⟨⟨by decide, htype, fun d hd => by cases hd⟩, described_none rfl⟩
  refine ⟨?_, ?_, ?_, ?_⟩
  · intro t ht _
    obtain rfl | rfl : t = jsonScalar ∨ t = deepOptions := by simpa using (show t ∈ [jsonScalar, deepOptions] from ht)
    · exact jsonScalar_fits _
    · exact ⟨by decide, described_none rfl, fun h => absurd h (by decide), fun _ => hfields,
        fun h => absurd h (by decide), fun h => absurd h (by decide), fun h => absurd h (by decide)⟩
  · rintro (_ | _ | _) n hn <;> cases hn
  · have hne : text jsonScalar "name" ≠ text deepOptions "name" := by decide
    exact List.pairwise_pair.2 hne
  · intro t ht hname
    obtain rfl | rfl : t = jsonScalar ∨ t = deepOptions := by simpa using (show t ∈ [jsonScalar, deepOptions] from ht)
    · rfl
    · exact absurd hname (by decide)

theorem spellInput_deepField :
    spellInput deepField = [.name "first", .colon, .name "Json", .equals] ++ brackets 600 600 := by
  rw [spellInput, defaultTokens?, nonEmpty?_deepField, Option.map_some, tokensOf_nestedList]
  change _ :: _ :: (spellType (typeRefOf jsonScalar) ++ _) = _
  rw [typeRefOf_jsonScalar]
  rfl

theorem spellInput_plainField : spellInput plainField = [.name "second", .colon, .name "Json"] := by
  change _ :: _ :: (spellType (typeRefOf jsonScalar) ++ _) = _
  rw [typeRefOf_jsonScalar]
  rfl

theorem prints_deepLines : List.Forall₂ Prints [inputLine deepField, inputLine plainField]
    [spellInput deepField, spellInput plainField] := by
  have htype : isName (typeRefOf jsonScalar).baseName = true := by rw [typeRefOf_jsonScalar]; decide
  have hdeep : PrintsWord (inputValue deepField) (spellInput deepField) := by
    refine printsWord_inputValue (by decide) htype fun d hd => ?_
    rw [nonEmpty?_deepField] at hd
    exact Option.mem_some.1 hd ▸ lexed_nestedList 600
  have hplain : PrintsWord (inputValue plainField) (spellInput plainField) :=
    printsWord_inputValue (by decide) htype fun d hd => by cases hd
  have hdeepLine : Prints (inputLine deepField) (spellString none ++ spellInput deepField) :=
    prints_inputLine prints_empty hdeep
  have hplainLine : Prints (inputLine plainField) (spellString none ++ spellInput plainField) :=
    prints_inputLine prints_empty hplain
  exact .cons hdeepLine (.cons hplainLine .nil)

theorem prints_deepOptions : Prints (typeDefinition deepOptions)
    ([.name "input", .name "Options"] ++ spellBraces [spellInput deepField, spellInput plainField]) := by
  have hnamed : PrintsWord ("input " ++ "Options") [.name "input", .name "Options"] :=
    (prints_keyword (w := "input") (by decide)).append_word (printsWord_name (by decide))
  exact prints_empty.append (prints_block hnamed prints_deepLines)

/-- What is left of the text where the first field ends. -/
def strayTokens : List (List Token) :=
  List.replicate 100 [.closeBracket] ++ [[.name "second"], [.colon], [.name "Json"], [.closeBrace]]

theorem deepTokens_eq : [.name "input", .name "Options"] ++ spellBraces [spellInput deepField, spellInput plainField] =
    .name "input" :: .name "Options" :: .openBrace :: .name "first" :: .colon :: .name "Json" :: .equals ::
      brackets 600 (nestingLimit + 1) ++ strayTokens.flatten := by
  have hsplit : brackets 600 600 = brackets 600 (nestingLimit + 1) ++ (List.replicate 100 [.closeBracket]).flatten := by
    have hclosed : (List.replicate 100 [Token.closeBracket]).flatten = List.replicate 100 .closeBracket := by decide
    rw [hclosed, brackets, brackets, List.append_assoc, List.replicate_append_replicate]
    rfl
  rw [spellInput_deepField, spellInput_plainField, spellBraces, hsplit]
  simp [strayTokens]

theorem takes_strayTokens : Takes definitions (List.replicate 104 .other) strayTokens.flatten none := by
  have hitems : List.Forall₂ (fun d xs => xs.head?.any (fun _ => true) = true ∧ True ∧
      ∀ next, True → Takes definition d xs next) (strayTokens.map fun _ => .other) strayTokens := by
    rw [List.forall₂_map_left_iff, List.forall₂_same]
    intro xs hxs
    obtain ⟨t, rfl, ht⟩ : ∃ t, xs = [t] ∧
        (t ∈ [.closeBracket, .colon, .closeBrace] ∨ t ∈ [.name "second", .name "Json"]) := by
      simp only [strayTokens, List.mem_append, List.mem_replicate, List.mem_cons, List.not_mem_nil, or_false] at hxs
      rcases hxs with ⟨-, rfl⟩ | rfl | rfl | rfl | rfl <;> exact ⟨_, rfl, by simp⟩
    exact ⟨rfl, trivial, fun _ _ => takes_stray ht⟩
  exact takes_many (fun _ => True) hitems trivial rfl

/-- Of the two definitions, the second ends where its first field does. -/
theorem definitions_deepInput :
    (definitions (lexemes (toSdl deepInput).toList)).value =
      .type (.scalar ⟨"Json", none⟩) :: .type (.input ⟨"Options", none, [⟨"first", .named "Json", none⟩]⟩) ::
        List.replicate 104 .other := by
  obtain ⟨items, hspelling, hprints⟩ := prints_typeDefinition describes_plain (jsonScalar_fits _)
  have hspelling : List.Forall₂ DefinitionSpelling [.type (.scalar ⟨"Json", none⟩)] items := hspelling
  obtain _ | @⟨_, xs, _, _, hspelled, _ | _⟩ := hspelling
  have hvalue : Takes (value .constant false nestingLimit) () (brackets 600 (nestingLimit + 1)) (some .closeBracket) :=
    takes_brackets 498 (by omega)
  have hcut : Takes definitions (.type (.input ⟨"Options", none, [⟨"first", .named "Json", none⟩]⟩) ::
      List.replicate 104 .other)
      ([.name "input", .name "Options"] ++ spellBraces [spellInput deepField, spellInput plainField]) none := by
    rw [deepTokens_eq]
    exact takes_many_cons rfl (takes_cutInput hvalue) takes_strayTokens
  have hall : Takes definitions _ (xs ++ _) none := takes_many_cons hspelled.head.1 (takes_definition hspelled rfl) hcut
  have htext : toSdl deepInput = "" ++ String.join [typeDefinition jsonScalar, typeDefinition deepOptions] := by
    rw [toSdl, writtenTypes_deepInput]
    rfl
  have hprinted := prints_empty.append (prints_join (.cons hprints (.cons prints_deepOptions .nil)))
  rw [← htext] at hprinted
  have htokens : tokens (lexemes (toSdl deepInput).toList) = xs ++ ([.name "input", .name "Options"] ++
      spellBraces [spellInput deepField, spellInput plainField]) := by
    have hwhole := hprinted.whole
    simp only [List.append_nil, List.nil_append, List.flatten_cons, List.flatten_nil] at hwhole
    exact hwhole
  exact hall.whole htokens

/-- The field after a default value that nests too deep is lost, though the value is a constant. -/
theorem deepInput_cut :
    SchemaFits Plain (fun d => ∃ depth, Literal depth d) deepInput ∧
      ¬ ∃ ts, (Schema.parse (toSdl deepInput)).types = Schema.builtin.types ++ ts ∧
        ts.Perm (definedTypes deepInput) := by
  refine ⟨deepInput_fits, ?_⟩
  rintro ⟨ts, hts, hperm⟩
  have hothers : ∀ (n : Nat) (s : Schema), (List.replicate n Definition.other).foldl Schema.add s = s := by
    intro n s
    induction n with
    | zero => rfl
    | succ n ih => exact ih
  rw [Schema.parse, definitions_deepInput, List.foldl_cons, List.foldl_cons, hothers] at hts
  have hread : [.scalar ⟨"Json", none⟩, .input ⟨"Options", none, [⟨"first", .named "Json", none⟩]⟩] = ts :=
    List.append_cancel_left (show Schema.builtin.types ++ _ = Schema.builtin.types ++ _ from hts)
  have hmem : .input ⟨"Options", none, [⟨"first", .named "Json", none⟩]⟩ ∈ definedTypes deepInput :=
    hperm.subset (hread ▸ List.mem_cons_of_mem _ List.mem_cons_self)
  obtain ⟨t, ht, hof⟩ := List.mem_filterMap.1 hmem
  obtain rfl | rfl : t = jsonScalar ∨ t = deepOptions := by simpa using (show t ∈ [jsonScalar, deepOptions] from ht)
  · cases hof
  · have hfields := congrArg (List.length ∘ TypeDefinition.fields) (Option.some.inj hof)
    exact absurd hfields (by decide)

end Introspection

end TypedQuery
