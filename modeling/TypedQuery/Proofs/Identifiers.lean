/-
Which names become identifiers. An identifier is legal if the host language
takes it for a name: it has the characters of one and is no word that the
language keeps for itself, or it is a raw one (`isLegal`). Whatever becomes an
identifier is a legal one (`isLegal_of_identifier?`). Of the texts made of
letters, digits and underscores, those do that begin with no digit and are not
empty (`identifier?_eq`), and they become what escaping makes of them.
-/
import TypedQuery.Proofs.EmittedNames

namespace TypedQuery

theorem mem_of_mem_intercalate {α : Type} {separator : List α} {parts : List (List α)} {a : α}
    (h : a ∈ separator.intercalate parts) : a ∈ separator ∨ ∃ w ∈ parts, a ∈ w := by
  induction parts with
  | nil => simp at h
  | cons w parts ih =>
    cases parts with
    | nil => exact .inr ⟨w, by simp, by simpa using h⟩
    | cons v parts =>
      rw [List.intercalate, List.intersperse_cons_cons, List.flatten_cons, List.flatten_cons, List.mem_append,
        List.mem_append] at h
      rcases h with h | h | h
      · exact .inr ⟨w, by simp, h⟩
      · exact .inl h
      · exact (ih h).imp_right fun ⟨u, hu, hmem⟩ => ⟨u, List.mem_cons_of_mem _ hu, hmem⟩

/-- Words of letters and digits, joined by underscores. -/
theorem isNameContinue_of_mem_joined {parts : List (List Char)} (h : ∀ w ∈ parts, ∀ c ∈ w, c.isAlphanum = true) :
    ∀ c ∈ ['_'].intercalate parts, isNameContinue c = true := by
  intro c hc
  rcases mem_of_mem_intercalate hc with hc | ⟨w, hw, hc⟩
  · rw [List.mem_singleton.1 hc]
    rfl
  · simp [isNameContinue, h w hw c hc]

/-- Nothing but letters, digits and underscores: a name, a number, or nothing at all. -/
def IsPlain (n : String) : Prop := ∀ c ∈ n.toList, isNameContinue c = true

section plain

variable {m n : String}

theorem isPlain_of_isName (h : isName n = true) : IsPlain n := isNameContinue_of_isName h

theorem isPlain_empty : IsPlain "" := by simp [IsPlain]

theorem isPlain_of_digits (h : ∀ c ∈ n.toList, c.isDigit = true) : IsPlain n := fun c hc => by
  simp [isNameContinue, Text.isAlphanum_of_isDigit (h c hc)]

theorem isPlain_of_isAlphanum (h : ∀ c ∈ n.toList, c.isAlphanum = true) : IsPlain n := fun c hc => by
  simp [isNameContinue, h c hc]

theorem isPlain_append : IsPlain (m ++ n) ↔ IsPlain m ∧ IsPlain n := by
  simp only [IsPlain, String.toList_append, List.forall_mem_append]

theorem isNameStart_of_not_isDigit {c : Char} (h : isNameContinue c = true) (hdigit : c.isDigit = false) :
    isNameStart c = true := by
  simpa [isNameContinue, isNameStart, Char.isAlphanum, hdigit] using h

/-- A plain text is a name if it is not empty and begins with no digit. -/
theorem isName_eq (h : IsPlain n) : isName n = n.toList.head?.any fun c => !c.isDigit := by
  unfold isName
  unfold IsPlain at h
  cases hn : n.toList with
  | nil => rfl
  | cons c w =>
    rw [hn, List.forall_mem_cons] at h
    dsimp only [List.head?_cons, Option.any_some]
    rw [List.all_eq_true.2 h.2, Bool.and_true]
    cases hdigit : c.isDigit with
    | true =>
      have hletter := Text.not_isAlpha_of_isDigit hdigit
      have hunderscore : c ≠ '_' := by
        rintro rfl
        cases hdigit
      simp [isNameStart, Char.isAlpha, hletter, hunderscore]
    | false => exact isNameStart_of_not_isDigit h.1 hdigit

theorem isName_append (hm : isName m = true) (hn : IsPlain n) : isName (m ++ n) = true := by
  obtain ⟨c, w, htext, hc, hw⟩ := isName_iff.1 hm
  refine isName_iff.2 ⟨c, w ++ n.toList, ?_, hc, List.forall_mem_append.2 ⟨hw, hn⟩⟩
  rw [String.toList_append, htext, List.cons_append]

end plain

namespace Emission

/-- The words that the host language keeps for itself, in use and in store. -/
def languageWords : List String :=
  ["as", "break", "const", "continue", "crate", "else", "enum", "extern", "false", "fn", "for", "if", "impl", "in",
   "let", "loop", "match", "mod", "move", "mut", "pub", "ref", "return", "self", "Self", "static", "struct", "super",
   "trait", "true", "type", "unsafe", "use", "where", "while", "async", "await", "dyn",
   "abstract", "become", "box", "do", "final", "macro", "override", "priv", "typeof", "unsized", "virtual", "yield",
   "try", "gen", "_"]

/-- Those of them that stay words when they are marked as raw. -/
def neverRaw : List String := ["crate", "self", "super", "Self", "_"]

/-- An identifier: a raw one after its mark, or a bare one, which is no word of the language. -/
def isLegal (i : String) : Bool :=
  match i.toList with
  | 'r' :: '#' :: raw => isIdentifier raw && String.ofList raw ∉ neverRaw
  | bare => isIdentifier bare && i ∉ languageWords

variable {n i : String}

theorem isIdentifier_iff_isName (h : IsPlain n) : isIdentifier n.toList = isName n := by
  unfold isName
  unfold IsPlain at h
  cases hn : n.toList with
  | nil => rfl
  | cons c w =>
    rw [hn, List.forall_mem_cons] at h
    have hstart : Text.isIdentifierStart c = c.isAlpha := Text.classOf_ascii (Text.ascii_of_isNameContinue h.1)
    have hrest : w.all Text.isIdentifierContinue = true := List.all_eq_true.2 fun c' hc' =>
      (Text.classOf_ascii (Text.ascii_of_isNameContinue (h.2 c' hc'))).trans (h.2 c' hc')
    dsimp only [isIdentifier]
    rw [hstart, hrest, List.all_eq_true.2 h.2, isNameStart, Bool.or_comm]

/-- Every word of the language is escaped. -/
theorem escaped_of_languageWord : ∀ w ∈ languageWords, w ∈ reserved ++ keywords := by decide

/-- A name that is not escaped is no word of the language, and one that is has become none. -/
theorem escapeWord_notMem_languageWords (n : String) : escapeWord n ∉ languageWords := by
  have hlonger : ∀ w ∈ reserved, w ++ "_" ∉ languageWords := by decide
  have hraw : ∀ w ∈ keywords, "r#" ++ w ∉ languageWords := by decide +kernel
  unfold escapeWord
  split
  next h => exact hlonger n h
  next hreserved =>
    split
    next h => exact hraw n h
    next hkeyword =>
      intro hmem
      rcases List.mem_append.1 (escaped_of_languageWord n hmem) with h | h
      · exact hreserved h
      · exact hkeyword h

/-- **Whatever becomes an identifier is a legal one.** -/
theorem isLegal_of_identifier? (h : identifier? n = some i) : isLegal i = true := by
  have hwords : ∀ w ∈ neverRaw, w ∈ reserved := by decide
  unfold identifier? at h
  dsimp only at h
  split at h
  next raw hraw =>
    split at h
    next hlegal =>
      cases h
      simp only [Bool.and_eq_true, decide_eq_true_eq] at hlegal
      simp only [isLegal, hraw, Bool.and_eq_true, decide_eq_true_eq]
      exact ⟨hlegal.1, fun hmem => hlegal.2 (hwords _ hmem)⟩
    next => cases h
  next hbare =>
    split at h
    next hlegal =>
      cases h
      unfold isLegal
      split
      next raw hraw => exact absurd hraw (hbare raw)
      next => simpa [escapeWord_notMem_languageWords n] using hlegal
    next => cases h

/-- A plain text becomes an identifier if it is a name. -/
theorem identifier?_eq (h : IsPlain n) : identifier? n = if isName n then some (escapeWord n) else none := by
  have hreserved : ∀ w ∈ reserved, identifier? w = some (escapeWord w) ∧ isName w = true := by decide +kernel
  have hkeywords : ∀ w ∈ keywords, identifier? w = some (escapeWord w) ∧ isName w = true := by decide +kernel
  by_cases hr : n ∈ reserved
  · rw [(hreserved n hr).1, (hreserved n hr).2, if_pos rfl]
  · by_cases hk : n ∈ keywords
    · rw [(hkeywords n hk).1, (hkeywords n hk).2, if_pos rfl]
    · have hself : escapeWord n = n := by rw [escapeWord, if_neg hr, if_neg hk]
      unfold identifier?
      dsimp only
      rw [hself]
      split
      next raw hraw => exact absurd (h '#' (by simp [hraw])) (by decide)
      next => rw [isIdentifier_iff_isName h]

theorem identifier?_of_isName (h : isName n = true) : identifier? n = some (escapeWord n) := by
  rw [identifier?_eq (isPlain_of_isName h), if_pos h]

theorem identifier_of_isName (h : isName n = true) : identifier n = .ok (escapeWord n) := by
  rw [identifier, identifier?_of_isName h]

theorem isLegal_escapeWord (h : isName n = true) : isLegal (escapeWord n) = true :=
  isLegal_of_identifier? (identifier?_of_isName h)

/-! ## Names of types and fields -/

theorem isName_withStem {stem : String} {name : List Char} (hstem : isName stem = true)
    (hname : ∀ c ∈ name, isNameContinue c = true) : isName (withStem stem name) = true := by
  have hplain : IsPlain (String.ofList name) := by simpa [IsPlain] using hname
  unfold withStem
  split
  next => exact isName_append hstem hplain
  next hfirst =>
    rw [isName_eq hplain, String.toList_ofList]
    cases name with
    | nil => simp at hfirst
    | cons c name => simpa using hfirst

/-- Of any plain text the name of a type is made. -/
theorem isName_typeName (h : IsPlain n) : isName (typeName n) = true := by
  refine isName_withStem (by decide) fun c hc => ?_
  simp [isNameContinue, Text.isAlphanum_of_mem_upperCamel h c hc]

theorem identifier_typeName (h : IsPlain n) : identifier (typeName n) = .ok (escapeWord (typeName n)) :=
  identifier_of_isName (isName_typeName h)

end Emission

end TypedQuery
