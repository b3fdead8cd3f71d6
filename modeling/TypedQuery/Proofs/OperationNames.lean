/-
Identifiers for operations. The structure for the variables of an operation is
named like a type, which never begins with a digit. The constant for its text
is not: its name begins as the name of the operation does after its
underscores, in capital letters. So it becomes an identifier unless a digit
stands there (`identifier?_constantName`), and no other name in a generation
stands in the way of its file (`emit_identifiers`).
-/
import TypedQuery.Emission
import TypedQuery.Proofs.FieldIdentifiers
import TypedQuery.Proofs.PlainShapes
import TypedQuery.Proofs.VariantNames

namespace TypedQuery

namespace Text

section firsts

variable {text reversed w : List Char} {mode : CaseMode} {c : Char}

theorem flatten_closeWord (reversed : List Char) : (closeWord reversed).flatten = reversed.reverse := by
  unfold closeWord
  cases reversed <;> simp

/-- Cutting leaves out nothing but what is neither letter nor digit. -/
theorem flatten_cutWords : (cutWords mode reversed text).flatten = reversed.reverse ++ text.filter isAlphanumeric := by
  induction text generalizing mode reversed with
  | nil => simp [cutWords, flatten_closeWord]
  | cons c text ih =>
    rw [cutWords]
    split
    next halpha =>
      have hc : isAlphanumeric c = false := by simpa using halpha
      rw [List.flatten_append, flatten_closeWord, ih, List.filter_cons_of_neg (by simp [hc])]
      rfl
    next halpha =>
      have hc : isAlphanumeric c = true := by simpa using halpha
      rw [List.filter_cons_of_pos hc]
      split
      next => simp [flatten_closeWord, ih]
      next =>
        split
        next => simp [flatten_closeWord, ih]
        next => simp [ih]

/-- The first letter or digit of the words is the first character that is no underscore. -/
theorem head?_flatten_words (htext : ∀ c ∈ text, isNameContinue c = true) :
    (words text).flatten.head? = (text.dropWhile (· = '_')).head? := by
  have halpha : ∀ c ∈ text, isAlphanumeric c = !decide (c = '_') := by
    intro c hc
    rw [isAlphanumeric_ascii (ascii_of_isNameContinue (htext c hc))]
    have hname := htext c hc
    by_cases hunderscore : c = '_'
    · subst hunderscore
      rfl
    · simpa [isNameContinue, hunderscore] using hname
  rw [words, flatten_cutWords, List.reverse_nil, List.nil_append, List.filter_congr halpha, List.head?_filter,
    List.find?_eq_head?_dropWhile_not]
  simp

theorem isDigit_toUpper (c : Char) : c.toUpper.isDigit = c.isDigit := by
  cases hlower : c.isLower with
  | false => rw [Char.toUpper_eq_of_not_isLower (by simp [hlower])]
  | true =>
    have hletter : c.isAlpha = true := by simp [Char.isAlpha, hlower]
    have hno : ∀ {c : Char}, c.isAlpha = true → c.isDigit = false := by
      intro c hc
      rw [Bool.eq_false_iff]
      intro hdigit
      simp [Char.isAlpha, not_isAlpha_of_isDigit hdigit] at hc
    rw [hno hletter, hno (by rwa [Char.isAlpha_toUpper_eq_isAlpha])]

theorem upperWord_ascii (h : ∀ c ∈ w, c.toNat < 128) : upperWord w = w.map Char.toUpper := by
  rw [upperWord, List.map_eq_flatMap]
  exact List.flatMap_congr fun c hc => uppercaseOf_ascii (h c hc)

/-- Joined words begin with the first letter or digit of the words, as a capital letter if it is a letter. -/
theorem head?_joined {ws : List (List Char)} (hws : ∀ w ∈ ws, w ≠ [] ∧ ∀ c ∈ w, c.toNat < 128) :
    (ws.flatMap capitalized).head? = ws.flatten.head?.map Char.toUpper ∧
      (['_'].intercalate (ws.map upperWord)).head? = ws.flatten.head?.map Char.toUpper := by
  cases ws with
  | nil => simp
  | cons w ws =>
    obtain ⟨hne, hascii⟩ := hws w List.mem_cons_self
    obtain ⟨c, w, rfl⟩ := List.exists_cons_of_ne_nil hne
    have hupper : upperWord (c :: w) = c.toUpper :: w.map Char.toUpper := upperWord_ascii hascii
    constructor
    · simp [capitalized_ascii hascii]
    · cases ws with
      | nil => simp [hupper]
      | cons v ws => simp [hupper, List.intercalate_cons_cons]

end firsts

end Text

namespace Emission

/-- After its underscores the name begins with a digit. -/
def isDigitLed (n : String) : Bool := (n.toList.dropWhile (· = '_')).head?.any Char.isDigit

/-- The name of the constant for an operation, by the stem of its data's name. -/
def constantName (stem : String) (kind : OperationKind) : String := constantStem stem ++ "_" ++ kindSuffix kind

section names

variable {n : String} {kind : OperationKind}

theorem words_plain (h : IsPlain n) : ∀ w ∈ Text.words n.toList, w ≠ [] ∧ ∀ c ∈ w, c.toNat < 128 := fun w hw =>
  ⟨Text.ne_nil_of_mem_cutWords w hw, fun c hc =>
    Text.ascii_of_isAlphanum (Text.isAlphanum_of_mem_cutWords h (List.forall_mem_nil _) w hw c hc)⟩

theorem isDigitLed_eq (h : IsPlain n) : isDigitLed n = (Text.words n.toList).flatten.head?.any Char.isDigit := by
  rw [isDigitLed, ← Text.head?_flatten_words h]

theorem isPlain_upperCamel (h : IsPlain n) : IsPlain (String.ofList (Text.upperCamel n.toList)) :=
  isPlain_of_isAlphanum (by rw [String.toList_ofList]; exact Text.isAlphanum_of_mem_upperCamel h)

theorem any_isDigit_map_toUpper (c? : Option Char) : (c?.map Char.toUpper).any Char.isDigit = c?.any Char.isDigit := by
  cases c? with
  | none => rfl
  | some c => exact Text.isDigit_toUpper c

/-- The stem of the name of an operation's data begins with a digit if the name of the operation does. -/
theorem isDigitLed_upperCamel (h : IsPlain n) :
    isDigitLed (String.ofList (Text.upperCamel n.toList)) = isDigitLed n := by
  have halpha := Text.isAlphanum_of_mem_upperCamel h
  have hfirst : (Text.upperCamel n.toList).dropWhile (· = '_') = Text.upperCamel n.toList := by
    generalize Text.upperCamel n.toList = camel at halpha
    cases camel with
    | nil => rfl
    | cons c camel =>
      refine List.dropWhile_cons_of_neg fun hunderscore => ?_
      obtain rfl : c = '_' := by simpa using hunderscore
      exact absurd (halpha '_' List.mem_cons_self) (by decide)
  rw [isDigitLed, String.toList_ofList, hfirst, isDigitLed_eq h, Text.upperCamel, (Text.head?_joined (words_plain h)).1,
    any_isDigit_map_toUpper]

theorem isPlain_constantName (h : IsPlain n) : IsPlain (constantName n kind) := by
  have hwords : ∀ w ∈ (Text.words n.toList).map Text.upperWord, ∀ c ∈ w, c.isAlphanum = true := by
    refine List.forall_mem_map.2 fun w hw => ?_
    have halpha := Text.isAlphanum_of_mem_cutWords h (List.forall_mem_nil _) w hw
    rw [Text.upperWord_ascii (words_plain h w hw).2]
    exact List.forall_mem_map.2 fun c hc => Text.isAlphanum_toUpper (halpha c hc)
  have hstem : IsPlain (constantStem n) := by
    rw [IsPlain, constantStem, String.toList_ofList]
    exact isNameContinue_of_mem_joined hwords
  have hsuffix : IsPlain (kindSuffix kind) := by
    cases kind <;> exact isPlain_of_isName (by decide)
  exact isPlain_append.2 ⟨isPlain_append.2 ⟨hstem, isPlain_of_isName (by decide)⟩, hsuffix⟩

/-- **The name of a constant** is one unless a digit stands first. -/
theorem isName_constantName (h : IsPlain n) : isName (constantName n kind) = !isDigitLed n := by
  have hstem : (constantStem n).toList.head? = (Text.words n.toList).flatten.head?.map Char.toUpper := by
    rw [constantStem, String.toList_ofList]
    exact (Text.head?_joined (words_plain h)).2
  have hdigit := any_isDigit_map_toUpper (Text.words n.toList).flatten.head?
  rw [isName_eq (isPlain_constantName h), isDigitLed_eq h, ← hdigit, ← hstem, constantName, String.toList_append,
    String.toList_append]
  cases (constantStem n).toList with
  | nil => rfl
  | cons c w => rfl

/-- So the constant has an identifier unless a digit stands first, and the identifier is its name. -/
theorem identifier?_constantName (h : IsPlain n) :
    identifier? (constantName n kind) = if isDigitLed n then none else some (constantName n kind) := by
  rw [identifier?_eq (isPlain_constantName h), isName_constantName h, constantName, escapeWord_constant]
  cases isDigitLed n <;> rfl

theorem escapeWord_variablesName (stem : String) : escapeWord (variablesName stem) = variablesName stem := by
  have hshort : ∀ w ∈ reserved ++ keywords, w.length < 9 := by decide
  have hlong : 9 ≤ (variablesName stem).length := by
    rw [variablesName, String.length_append]
    exact Nat.le_add_left 9 _
  have hfree : variablesName stem ∉ reserved ++ keywords := fun hmem => absurd (hshort _ hmem) (by omega)
  rw [List.mem_append, not_or] at hfree
  rw [escapeWord, if_neg hfree.1, if_neg hfree.2]

/-- **The structure for variables** has its name for an identifier. -/
theorem identifier?_variablesName (h : IsPlain n) : identifier? (variablesName n) = some (variablesName n) := by
  have hname : isName (variablesName n) = true := isName_append (isName_typeName h) (isPlain_of_isName (by decide))
  rw [identifier?_of_isName hname, escapeWord_variablesName]

/-- A plain name that is not escaped is legal if it is a name. -/
theorem isLegal_eq_isName (h : IsPlain n) (hself : escapeWord n = n) : isLegal n = isName n := by
  cases hname : isName n with
  | true => exact hself ▸ isLegal_escapeWord hname
  | false =>
    unfold isLegal
    split
    next raw hraw => exact absurd (h '#' (by simp [hraw])) (by decide)
    next => rw [isIdentifier_iff_isName h, hname, Bool.false_and]

end names

/-! ## Errors -/

section errors

variable {kinds : Kinds} {box : Bool} {b : BaseType} {p : PropertyType} {t : Shape} {op : OperationShape}
  {g : Generation} {e : EmissionError}

/-- The error is about the host type of a scalar. -/
def EmissionError.IsOfHost (e : EmissionError) : Prop := ∃ scalar host, e = .invalidHostType scalar host

theorem identifier_error {n : String} (h : identifier n = .error e) :
    identifier? n = none ∧ e = .notAnIdentifier n := by
  unfold identifier at h
  split at h
  next => cases h
  next hnone =>
    cases h
    exact ⟨hnone, rfl⟩

theorem exists_of_mapM_error {ε α β : Type} {f : α → Except ε β} {l : List α} {e : ε} (h : l.mapM f = .error e) :
    ∃ a ∈ l, f a = .error e := by
  induction l with
  | nil => cases h
  | cons a l ih =>
    rw [List.mapM_cons] at h
    rcases bind_eq_error.1 h with ha | ⟨b, -, h⟩
    · exact ⟨a, List.mem_cons_self, ha⟩
    · rcases bind_eq_error.1 h with hl | ⟨more, -, h⟩
      · obtain ⟨a', ha', h'⟩ := ih hl
        exact ⟨a', List.mem_cons_of_mem a ha', h'⟩
      · cases h

theorem baseType_error (hb : ∀ n, b = .generated n → IsPlain n) (h : baseType kinds box b = .error e) :
    e.IsOfHost := by
  cases b with
  | scalar name host =>
    rw [baseType] at h
    split at h
    · cases h
    · cases h
      exact ⟨name, host, rfl⟩
  | generated n =>
    rw [baseType, identifier_typeName (hb n rfl)] at h
    cases h

theorem fieldType_error (hp : ∀ n, p.base = .generated n → IsPlain n) (h : fieldType kinds box p = .error e) :
    e.IsOfHost := by
  induction p generalizing box with
  | named b nullable =>
    rcases bind_eq_error.1 h with h | ⟨type, -, h⟩
    · exact baseType_error hp h
    · cases h
  | list element nullable ih =>
    rcases bind_eq_error.1 h with h | ⟨type, -, h⟩
    · exact ih hp h
    · cases h

theorem fields_error_host {role : Role} {ps : List Property} (hps : ∀ q ∈ ps, q.PlainNames)
    (h : fields kinds role [] ps = .error e) : e.IsOfHost := by
  obtain ⟨q, hq, htype⟩ := fields_error (fun q hq => (hps q hq).name) h
  exact fieldType_error (hps q hq).base htype

theorem shapeItem_error (ht : t.PlainNames) (h : shapeItem kinds t = .error e) : e.IsOfHost := by
  have hstruct : ∀ {role}, structItem kinds role t = .error e → e.IsOfHost := by
    intro role h
    rw [structItem, identifier_typeName ht.name] at h
    rcases bind_eq_error.1 h with h | ⟨name, -, h⟩
    · cases h
    · rcases bind_eq_error.1 h with h | ⟨fs, -, h⟩
      · exact fields_error_host ht.properties h
      · cases h
  unfold shapeItem at h
  split at h
  next values hkind =>
    rw [enumItem_eq ht.name (ht.values values hkind)] at h
    cases h
  next => exact hstruct h
  next =>
    split at h
    next => exact hstruct h
    next =>
      rw [taggedItem_eq ht.name ht.variants] at h
      cases h

/-- The items of an operation only fail for a host type, or for the name of the constant. -/
theorem operationItems_error (hstem : IsPlain (operationStem op.dataType)) (hop : ∀ q ∈ op.parameters, q.PlainNames)
    (h : operationItems kinds op = .error e) :
    e.IsOfHost ∨ e = .notAnIdentifier (constantName (operationStem op.dataType) op.kind) ∧
      isDigitLed (operationStem op.dataType) = true := by
  rcases bind_eq_error.1 h with h | ⟨i, -, h⟩
  · obtain ⟨hnone, rfl⟩ := identifier_error h
    have hname : identifier? (constantName (operationStem op.dataType) op.kind) = none := hnone
    rw [identifier?_constantName hstem] at hname
    exact .inr ⟨rfl, by simpa using hname⟩
  · left
    dsimp only at h
    split at h
    next => cases h
    next =>
      rcases bind_eq_error.1 h with h | ⟨structName, -, h⟩
      · obtain ⟨hnone, -⟩ := identifier_error h
        cases hnone.symm.trans (identifier?_variablesName hstem)
      · rcases bind_eq_error.1 h with h | ⟨fs, -, h⟩
        · exact fields_error_host hop h
        · cases h

/-- An operation whose items are made has no digit first. -/
theorem isDigitLed_of_operationItems {its : List Item} (hstem : IsPlain (operationStem op.dataType))
    (h : operationItems kinds op = .ok its) : isDigitLed (operationStem op.dataType) = false := by
  obtain ⟨i, hi, -⟩ := bind_eq_ok.1 h
  rw [Bool.eq_false_iff]
  intro hled
  have hnone : identifier? (constantName (operationStem op.dataType) op.kind) = none := by
    rw [identifier?_constantName hstem, if_pos hled]
  have hsome : identifier (constantName (operationStem op.dataType) op.kind) = .ok i := hi
  rw [identifier, hnone] at hsome
  cases hsome

/-- A file is missing for a host type, or for the name of a constant. -/
theorem emit_error (hg : g.PlainNames) (hstems : ∀ op ∈ g.operations, IsPlain (operationStem op.dataType))
    (h : emit g = .error e) : e.IsOfHost ∨ ∃ op ∈ g.operations,
      e = .notAnIdentifier (constantName (operationStem op.dataType) op.kind) ∧
        isDigitLed (operationStem op.dataType) = true := by
  rcases bind_eq_error.1 h with h | ⟨all, -, h⟩
  · rcases bind_eq_error.1 h with h | ⟨types, -, h⟩
    · obtain ⟨t, ht, herror⟩ := exists_of_mapM_error h
      exact .inl (shapeItem_error (hg.shapes t ht) herror)
    · rcases bind_eq_error.1 h with h | ⟨groups, -, h⟩
      · obtain ⟨op, hop, herror⟩ := exists_of_mapM_error h
        exact (operationItems_error (hstems op hop) (hg.parameters op hop) herror).imp_right fun h => ⟨op, hop, h⟩
      · cases h
  · cases h

/-- If there is a file, then no operation has a digit first. -/
theorem isDigitLed_of_emit (hstems : ∀ op ∈ g.operations, IsPlain (operationStem op.dataType)) {text : String}
    (h : emit g = .ok text) : ∀ op ∈ g.operations, isDigitLed (operationStem op.dataType) = false := by
  obtain ⟨all, hall, -⟩ := bind_eq_ok.1 h
  obtain ⟨types, -, hall⟩ := bind_eq_ok.1 hall
  obtain ⟨groups, hgroups, -⟩ := bind_eq_ok.1 hall
  intro op hop
  obtain ⟨its, -, hits⟩ := exists_of_forall₂_left (forall₂_of_mapM_ok hgroups) hop
  exact isDigitLed_of_operationItems (hstems op hop) hits

end errors

end Emission

namespace Schema

open Emission

variable {s : Schema} {d : Document} {g : Generation}

/-- What becomes of the names of an operation: the structure for its variables has its name for a legal identifier;
so has the constant for its text, unless the operation is called something that begins with a digit after its
underscores. Then the name of the constant is no legal identifier, and becomes none. -/
structure NamesItems (s : Schema) (op : Operation) (shape : OperationShape) : Prop where
  parameters : identifier? (variablesName (operationStem shape.dataType)) =
    some (variablesName (operationStem shape.dataType))
  parametersLegal : isLegal (variablesName (operationStem shape.dataType)) = true
  constant : identifier? (constantName (operationStem shape.dataType) shape.kind) =
    if isDigitLed (s.operationName op) then none else some (constantName (operationStem shape.dataType) shape.kind)
  constantLegal : isLegal (constantName (operationStem shape.dataType) shape.kind) = !isDigitLed (s.operationName op)

theorem Heads.stems {op : Operation} {shape : OperationShape} (h : s.Heads op shape)
    (hname : IsPlain (s.operationName op)) : IsPlain (operationStem shape.dataType) ∧
      isDigitLed (operationStem shape.dataType) = isDigitLed (s.operationName op) := by
  rw [h.stem]
  exact ⟨isPlain_upperCamel hname, isDigitLed_upperCamel hname⟩

theorem Heads.namesItems {op : Operation} {shape : OperationShape} (h : s.Heads op shape)
    (hname : IsPlain (s.operationName op)) : s.NamesItems op shape := by
  obtain ⟨hstem, hled⟩ := h.stems hname
  have hvariables := identifier?_variablesName hstem
  refine ⟨hvariables, isLegal_of_identifier? hvariables, ?_, ?_⟩
  · rw [identifier?_constantName hstem, hled]
  · rw [isLegal_eq_isName (isPlain_constantName hstem) (escapeWord_constant _ _), isName_constantName hstem, hled]

theorem Heads.identifiers {ops : List Operation} {shapes : List OperationShape} (h : List.Forall₂ s.Heads ops shapes)
    (hnames : ∀ op ∈ ops, IsPlain (s.operationName op)) : List.Forall₂ s.NamesItems ops shapes :=
  List.forall₂_iff_get.2 ⟨h.length_eq, fun i hi hi' =>
    (h.get hi hi').namesItems (hnames _ (List.get_mem ops ⟨i, hi⟩))⟩

/-- **Names of operations in emitted code.** Of every operation in a generation for texts, the structure for its
variables has a legal name, and so has the constant for its text unless a digit stands first in the name of the
operation, after its underscores. No other name is in the way of the file: if emission stops at a name, then it is the
name of the constant for an operation with a digit first, and if there is such an operation, then there is no file. -/
theorem operations_identifiers {query sdl : String} {scalars : ScalarMappings}
    (hs : s = { Schema.parse sdl with scalars := scalars }) (hd : Document.parse query = .ok d)
    (hg : s.generate d = .ok g) :
    List.Forall₂ s.NamesItems d.operations g.operations ∧
    (∀ n, emit g = .error (.notAnIdentifier n) → ∃ op ∈ d.operations, isDigitLed (s.operationName op) = true ∧
      n = constantName (s.stem op) op.kind) ∧
    ((∃ op ∈ d.operations, isDigitLed (s.operationName op) = true) → ∀ text, emit g ≠ .ok text) := by
  have hnames := Schema.plainNames_parse sdl
  have hschema : s.PlainNames := hs ▸ ⟨hnames.types, hnames.roots⟩
  have hdocument := Document.plainNames_of_parse hd
  have hplain : ∀ op ∈ d.operations, IsPlain (s.operationName op) := fun op hop =>
    isPlain_operationName hschema hdocument hop
  obtain ⟨-, -, hheads⟩ := generate_namedApart hg
  have hstems : ∀ shape ∈ g.operations, IsPlain (operationStem shape.dataType) := by
    intro shape hshape
    obtain ⟨op, hop, hhead⟩ := exists_of_forall₂_right hheads hshape
    exact (hhead.stems (hplain op hop)).1
  refine ⟨Heads.identifiers hheads hplain, fun n herror => ?_, fun ⟨op, hop, hled⟩ text htext => ?_⟩
  · obtain ⟨scalar, host, hhost⟩ | ⟨shape, hshape, hn, hled⟩ :=
      emit_error (generate_plainNames hschema hdocument hg) hstems herror
    · cases hhost
    · obtain ⟨op, hop, hhead⟩ := exists_of_forall₂_right hheads hshape
      have hname : n = constantName (operationStem shape.dataType) shape.kind := EmissionError.notAnIdentifier.inj hn
      rw [(hhead.stems (hplain op hop)).2] at hled
      exact ⟨op, hop, hled, by rw [hname, hhead.stem, hhead.kind]⟩
  · obtain ⟨shape, hshape, hhead⟩ := exists_of_forall₂_left hheads hop
    have hfree := isDigitLed_of_emit hstems htext shape hshape
    rw [(hhead.stems (hplain op hop)).2, hled] at hfree
    cases hfree

/-! Operations that are called nothing but an underscore, like the last part of the name of their data, or by a
number. -/

def echoText : String := "type Query { a: String }"

def echo : Schema where
  types := builtin.types ++ [.object ⟨"Query", none, [], [⟨"a", .named "String", none⟩]⟩]
  roots := {}
  scalars := .default

theorem echo_parse : echo = { Schema.parse echoText with scalars := .default } := by decide +kernel

def echoed (name : String) : Shape :=
  ⟨name, "Query", .object, none, [⟨"a", "a", .named (.scalar "String" "String") true, none⟩]⟩

def underscoreText : String := "query _($v: String) { a } query Data { a }"

def underscoreDocument : Document where
  operations := [
    ⟨some "_", .query, [⟨"v", .named "String", false⟩], [.field none "a" false []], "query _($v: String) { a }"⟩,
    ⟨some "Data", .query, [], [.field none "a" false []], "query Data { a }"⟩]
  fragments := []

theorem underscoreText_parse : Document.parse underscoreText = .ok underscoreDocument := by decide +kernel

theorem underscore_identifiers : ∃ d g, Document.parse underscoreText = .ok d ∧
    echo = { Schema.parse echoText with scalars := .default } ∧ echo.generate d = .ok g ∧
    List.Forall₂ echo.NamesItems d.operations g.operations ∧ (emit g).isOk = true ∧
    (g.operations.map fun shape => (variablesName (operationStem shape.dataType),
      constantName (operationStem shape.dataType) shape.kind)) =
        [("TVariables", "_QUERY"), ("DataVariables", "DATA_QUERY")] := by
  have hg : echo.generate underscoreDocument = .ok ⟨[
      ⟨some "_", .query, "Data", [⟨"v", "v", .named (.scalar "String" "String") true, none⟩],
        "query _($v: String) { a }"⟩,
      ⟨some "Data", .query, "DataData", [], "query Data { a }"⟩],
    [echoed "Data", echoed "DataData"]⟩ := by cbv
  obtain ⟨hnames, -, -⟩ := operations_identifiers echo_parse underscoreText_parse hg
  exact ⟨_, _, underscoreText_parse, echo_parse, hg, hnames, by decide +kernel, by decide +kernel⟩

def numberText : String := "query _1 { a }"

def numberDocument : Document where
  operations := [⟨some "_1", .query, [], [.field none "a" false []], numberText⟩]
  fragments := []

theorem numberText_parse : Document.parse numberText = .ok numberDocument := by decide +kernel

/-- The number comes first in the name of the constant, so there is no file. -/
theorem number_unnamed : ∃ d g, Document.parse numberText = .ok d ∧
    echo = { Schema.parse echoText with scalars := .default } ∧ echo.generate d = .ok g ∧
    (∃ shape ∈ g.operations, constantName (operationStem shape.dataType) shape.kind = "1_QUERY") ∧
    isLegal "1_QUERY" = false ∧ emit g = .error (.notAnIdentifier "1_QUERY") := by
  have hg : echo.generate numberDocument =
      .ok ⟨[⟨some "_1", .query, "1Data", [], numberText⟩], [echoed "1Data"]⟩ := by cbv
  exact ⟨_, _, numberText_parse, echo_parse, hg, ⟨_, List.mem_cons_self, by decide +kernel⟩, by decide +kernel,
    by decide +kernel⟩

end Schema

end TypedQuery
