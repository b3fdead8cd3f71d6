/-
Names on their way into emitted code. A GraphQL name is cut into words and
joined again without leaving ASCII, so digits at its end stay where they are
(`typeName_digits`), and escaping tells names apart that are made of letters
and digits (`escapeWord_injective`).
-/
import Mathlib
import TypedQuery.Emission.Item
import TypedQuery.Proofs.TextTokens

namespace TypedQuery

namespace Text

/-! ## Characters -/

section ascii

variable {c : Char}

theorem ascii_of_isAlphanum (h : c.isAlphanum = true) : c.toNat < 128 := by
  simp only [Char.isAlphanum, Char.isAlpha, Char.isUpper, Char.isLower, Char.isDigit, Bool.or_eq_true, Bool.and_eq_true,
    decide_eq_true_eq, UInt32.le_iff_toNat_le, ge_iff_le] at h
  change ((65 ≤ c.toNat ∧ c.toNat ≤ 90) ∨ (97 ≤ c.toNat ∧ c.toNat ≤ 122)) ∨ (48 ≤ c.toNat ∧ c.toNat ≤ 57) at h
  omega

theorem ascii_of_isNameContinue (h : isNameContinue c = true) : c.toNat < 128 := by
  simp only [isNameContinue, Bool.or_eq_true, decide_eq_true_eq] at h
  rcases h with h | rfl
  · exact ascii_of_isAlphanum h
  · decide

theorem isAlphanum_of_isDigit (h : c.isDigit = true) : c.isAlphanum = true := by simp [Char.isAlphanum, h]

theorem ascii_of_isDigit (h : c.isDigit = true) : c.toNat < 128 := ascii_of_isAlphanum (isAlphanum_of_isDigit h)

/-- A digit is no letter. -/
theorem not_isAlpha_of_isDigit (h : c.isDigit = true) : c.isUpper = false ∧ c.isLower = false := by
  simp only [Char.isDigit, Char.isUpper, Char.isLower, Bool.and_eq_true, decide_eq_true_eq, UInt32.le_iff_toNat_le,
    ge_iff_le, Bool.and_eq_false_iff, decide_eq_false_iff_not] at h ⊢
  change 48 ≤ c.toNat ∧ c.toNat ≤ 57 at h
  change ¬ (65 ≤ c.toNat ∧ c.toNat ≤ 90) ∧ (¬ 97 ≤ c.toNat ∨ ¬ c.toNat ≤ 122)
  omega

theorem isAlphanumeric_ascii (h : c.toNat < 128) : isAlphanumeric c = c.isAlphanum := classOf_ascii h

theorem isAlphanumeric_digit (h : c.isDigit = true) : isAlphanumeric c = true :=
  (isAlphanumeric_ascii (ascii_of_isDigit h)).trans (isAlphanum_of_isDigit h)

theorem isUppercase_digit (h : c.isDigit = true) : isUppercase c = false :=
  (classOf_ascii (ascii_of_isDigit h)).trans (not_isAlpha_of_isDigit h).1

theorem isLowercase_digit (h : c.isDigit = true) : isLowercase c = false :=
  (classOf_ascii (ascii_of_isDigit h)).trans (not_isAlpha_of_isDigit h).2

theorem lowercaseOf_ascii (h : c.toNat < 128) : lowercaseOf c = [c.toLower] := if_pos h

theorem uppercaseOf_ascii (h : c.toNat < 128) : uppercaseOf c = [c.toUpper] := if_pos h

theorem toLower_digit (h : c.isDigit = true) : c.toLower = c :=
  Char.toLower_eq_of_not_isUpper (by simp [(not_isAlpha_of_isDigit h).1])

theorem toUpper_digit (h : c.isDigit = true) : c.toUpper = c :=
  Char.toUpper_eq_of_not_isLower (by simp [(not_isAlpha_of_isDigit h).2])

theorem isAlphanum_toLower (h : c.isAlphanum = true) : c.toLower.isAlphanum = true := by
  simp only [Char.isAlphanum, Char.isAlpha_toLower_eq_isAlpha, Bool.or_eq_true] at h ⊢
  exact h.imp_right fun hdigit => (toLower_digit hdigit).symm ▸ hdigit

theorem isAlphanum_toUpper (h : c.isAlphanum = true) : c.toUpper.isAlphanum = true := by
  simp only [Char.isAlphanum, Char.isAlpha_toUpper_eq_isAlpha, Bool.or_eq_true] at h ⊢
  exact h.imp_right fun hdigit => (toUpper_digit hdigit).symm ▸ hdigit

end ascii

/-! ## Words -/

section words

variable {text reversed digits : List Char} {mode : CaseMode}

/-- Digits belong to the word before them. -/
theorem cutWords_digits (hdigits : ∀ c ∈ digits, c.isDigit = true) :
    cutWords mode reversed digits = closeWord (digits.reverse ++ reversed) := by
  induction digits generalizing reversed with
  | nil => rfl
  | cons c digits ih =>
    obtain ⟨hc, hrest⟩ := List.forall_mem_cons.1 hdigits
    have hnext : digits.head?.any isUppercase = false := by
      cases digits with
      | nil => rfl
      | cons c' _ => exact isUppercase_digit (hrest c' List.mem_cons_self)
    have hmode : mode.after c = mode := by
      simp [CaseMode.after, isUppercase_digit hc, isLowercase_digit hc]
    rw [cutWords, isAlphanumeric_digit hc, hnext, isUppercase_digit hc, hmode]
    simp [ih hrest]

/-- The words of a text of letters, digits and underscores are made of letters and digits. -/
theorem isAlphanum_of_mem_cutWords (htext : ∀ c ∈ text, isNameContinue c = true)
    (hreversed : ∀ c ∈ reversed, c.isAlphanum = true) :
    ∀ w ∈ cutWords mode reversed text, ∀ c ∈ w, c.isAlphanum = true := by
  have hclosed : ∀ {reversed : List Char}, (∀ c ∈ reversed, c.isAlphanum = true) →
      ∀ w ∈ closeWord reversed, ∀ c ∈ w, c.isAlphanum = true := by
    intro reversed h w hw
    unfold closeWord at hw
    split at hw
    next => cases hw
    next =>
      rw [List.mem_singleton.1 hw]
      simpa using h
  induction text generalizing mode reversed with
  | nil => exact hclosed hreversed
  | cons c text ih =>
    obtain ⟨hc, hrest⟩ := List.forall_mem_cons.1 htext
    have hfresh : ∀ w ∈ cutWords .boundary [] text, ∀ c ∈ w, c.isAlphanum = true := ih hrest (List.forall_mem_nil _)
    rw [cutWords]
    split
    next => exact List.forall_mem_append.2 ⟨hclosed hreversed, hfresh⟩
    next halpha =>
      rw [isAlphanumeric_ascii (ascii_of_isNameContinue hc), Bool.not_eq_true, Bool.not_eq_false'] at halpha
      have hopen : ∀ c' ∈ c :: reversed, c'.isAlphanum = true := List.forall_mem_cons.2 ⟨halpha, hreversed⟩
      split
      next => exact List.forall_mem_append.2 ⟨hclosed hopen, hfresh⟩
      next =>
        split
        next => exact List.forall_mem_append.2 ⟨hclosed hreversed, ih hrest (by simpa using halpha)⟩
        next => exact ih hrest hopen

theorem lowerWord_ascii {w : List Char} (h : ∀ c ∈ w, c.toNat < 128) : lowerWord w = w.map Char.toLower := by
  induction w with
  | nil => rfl
  | cons c w ih =>
    obtain ⟨hc, hw⟩ := List.forall_mem_cons.1 h
    cases w with
    | nil =>
      have hsigma : c ≠ 'Σ' := by
        rintro rfl
        exact absurd hc (by decide)
      simp [lowerWord, hsigma, lowercaseOf_ascii hc]
    | cons c' w => simp [lowerWord, lowercaseOf_ascii hc, ih hw]

theorem capitalized_ascii {c : Char} {w : List Char} (h : ∀ c' ∈ c :: w, c'.toNat < 128) :
    capitalized (c :: w) = c.toUpper :: w.map Char.toLower := by
  obtain ⟨hc, hw⟩ := List.forall_mem_cons.1 h
  rw [capitalized, uppercaseOf_ascii hc, lowerWord_ascii hw]
  rfl

theorem map_toLower_digits (hdigits : ∀ c ∈ digits, c.isDigit = true) : digits.map Char.toLower = digits :=
  (List.map_congr_left fun c hc => toLower_digit (hdigits c hc)).trans (List.map_id' _)

/-- Digits at the end of a word keep their place when it is capitalized. -/
theorem capitalized_append {w : List Char} (hw : ∀ c ∈ w, c.toNat < 128) (hdigits : ∀ c ∈ digits, c.isDigit = true) :
    capitalized (w ++ digits) = capitalized w ++ digits := by
  have hascii : ∀ c ∈ digits, c.toNat < 128 := fun c hc => ascii_of_isDigit (hdigits c hc)
  cases w with
  | cons c w =>
    have hwhole : ∀ c' ∈ c :: (w ++ digits), c'.toNat < 128 := List.forall_mem_append.2 ⟨hw, hascii⟩
    rw [List.cons_append, capitalized_ascii hwhole, capitalized_ascii hw, List.map_append, map_toLower_digits hdigits]
    rfl
  | nil =>
    cases digits with
    | nil => rfl
    | cons c digits =>
      obtain ⟨hc, hrest⟩ := List.forall_mem_cons.1 hdigits
      rw [List.nil_append, capitalized_ascii hascii, map_toLower_digits hrest, toUpper_digit hc]
      rfl

theorem flatMap_closeWord (reversed : List Char) :
    (closeWord reversed).flatMap capitalized = capitalized reversed.reverse := by
  unfold closeWord
  cases reversed with
  | nil => rfl
  | cons c reversed => simp

/-- Digits at the end of a text are the last letters of its capitalized words. -/
theorem flatMap_cutWords_append (htext : ∀ c ∈ text, isNameContinue c = true)
    (hreversed : ∀ c ∈ reversed, c.toNat < 128) (hdigits : ∀ c ∈ digits, c.isDigit = true) :
    (cutWords mode reversed (text ++ digits)).flatMap capitalized =
      (cutWords mode reversed text).flatMap capitalized ++ digits := by
  induction text generalizing mode reversed with
  | nil =>
    rw [List.nil_append, cutWords_digits hdigits, cutWords, flatMap_closeWord, flatMap_closeWord, List.reverse_append,
      List.reverse_reverse, capitalized_append (by simpa using hreversed) hdigits]
  | cons c text ih =>
    obtain ⟨hc, hrest⟩ := List.forall_mem_cons.1 htext
    have hopen : ∀ c' ∈ c :: reversed, c'.toNat < 128 :=
      List.forall_mem_cons.2 ⟨ascii_of_isNameContinue hc, hreversed⟩
    have hfresh : (cutWords .boundary [] (text ++ digits)).flatMap capitalized = _ := ih hrest (List.forall_mem_nil _)
    -- no word begins or ends between the text and the digits
    have hhead : ∀ {p : Char → Bool}, (∀ c, c.isDigit = true → p c = false) →
        (text ++ digits).head?.any p = text.head?.any p := by
      intro p hp
      cases text with
      | cons => rfl
      | nil =>
        cases digits with
        | nil => rfl
        | cons c' _ => exact hp c' (hdigits c' List.mem_cons_self)
    rw [List.cons_append, cutWords, cutWords, hhead fun _ => isUppercase_digit, hhead fun _ => isLowercase_digit]
    split
    next => rw [List.flatMap_append, hfresh, List.flatMap_append, List.append_assoc]
    next =>
      split
      next => rw [List.flatMap_append, hfresh, List.flatMap_append, List.append_assoc]
      next =>
        split
        next =>
          have hword : (cutWords .boundary [c] (text ++ digits)).flatMap capitalized = _ :=
            ih hrest (by simpa using ascii_of_isNameContinue hc)
          rw [List.flatMap_append, hword, List.flatMap_append, List.append_assoc]
        next => exact ih hrest hopen

end words

/-- Words joined again are made of letters and digits. -/
theorem isAlphanum_of_mem_upperCamel {text : List Char} (htext : ∀ c ∈ text, isNameContinue c = true) :
    ∀ c ∈ upperCamel text, c.isAlphanum = true := by
  intro c hc
  obtain ⟨w, hw, hc⟩ := List.mem_flatMap.1 hc
  have hword := isAlphanum_of_mem_cutWords htext (List.forall_mem_nil _) w hw
  cases w with
  | nil => cases hc
  | cons c' w =>
    rw [capitalized_ascii fun x hx => ascii_of_isAlphanum (hword x hx)] at hc
    obtain ⟨hfirst, hrest⟩ := List.forall_mem_cons.1 hword
    rcases List.mem_cons.1 hc with rfl | hc
    · exact isAlphanum_toUpper hfirst
    · obtain ⟨x, hx, rfl⟩ := List.mem_map.1 hc
      exact isAlphanum_toLower (hrest x hx)

end Text

theorem isNameContinue_of_isName {n : String} (h : isName n = true) : ∀ c ∈ n.toList, isNameContinue c = true := by
  obtain ⟨c, w, hn, hc, hw⟩ := isName_iff.1 h
  rw [hn]
  exact List.forall_mem_cons.2 ⟨isNameContinue_of_isNameStart hc, hw⟩

namespace Emission

/-! ## Type names -/

theorem withStem_append {stem : String} {name digits : List Char} (hdigits : ∀ c ∈ digits, c.isDigit = true) :
    withStem stem (name ++ digits) = withStem stem name ++ String.ofList digits := by
  unfold withStem
  cases name with
  | cons c name =>
    cases hdigit : c.isDigit with
    | true => simp [hdigit, String.append_assoc]
    | false => simp [hdigit, String.append_assoc]
  | nil =>
    cases digits with
    | nil => simp
    | cons c digits => simp [hdigits c List.mem_cons_self]

/-- **Digits after a name** come after the name of its type, too. -/
theorem typeName_digits {n digits : String} (hn : isName n = true) (hdigits : ∀ c ∈ digits.toList, c.isDigit = true) :
    typeName (n ++ digits) = typeName n ++ digits := by
  have hcamel : Text.upperCamel (n.toList ++ digits.toList) = Text.upperCamel n.toList ++ digits.toList :=
    Text.flatMap_cutWords_append (isNameContinue_of_isName hn) (List.forall_mem_nil _) hdigits
  rw [typeName, String.toList_append, hcamel, withStem_append hdigits, String.ofList_toList]
  rfl

theorem isAlphanum_of_mem_typeName {n : String} (hn : ∀ c ∈ n.toList, isNameContinue c = true) :
    ∀ c ∈ (typeName n).toList, c.isAlphanum = true := by
  have hcamel := Text.isAlphanum_of_mem_upperCamel hn
  unfold typeName withStem
  split
  next =>
    rw [String.toList_append, String.toList_ofList (l := Text.upperCamel n.toList)]
    exact List.forall_mem_append.2 ⟨by simp, hcamel⟩
  next => rwa [String.toList_ofList]

/-! ## Escapes -/

theorem identifier_eq_ok {name i : String} (h : identifier name = .ok i) : i = escapeWord name := by
  unfold identifier identifier? at h
  dsimp only at h
  split at h
  next i' hsome =>
    cases h
    split at hsome <;> split at hsome <;> simp_all
  next => cases h

section escapes

variable {a b : String}

theorem underscore_mem_escapeWord (ha : ∀ c ∈ a.toList, c.isAlphanum = true) :
    '_' ∈ (escapeWord a).toList ↔ a ∈ reserved := by
  have hfree : '_' ∉ a.toList := fun hmem => absurd (ha _ hmem) (by decide)
  unfold escapeWord
  split
  next h => simp [h]
  next h => split <;> simp [h, hfree]

theorem sharp_mem_escapeWord (ha : ∀ c ∈ a.toList, c.isAlphanum = true) (hreserved : a ∉ reserved) :
    '#' ∈ (escapeWord a).toList ↔ a ∈ keywords := by
  have hfree : '#' ∉ a.toList := fun hmem => absurd (ha _ hmem) (by decide)
  rw [escapeWord, if_neg hreserved]
  split
  next h => simp [h]
  next h => simp [h, hfree]

/-- An escaped name of letters and digits shows how it was escaped. -/
theorem escapeWord_injective (ha : ∀ c ∈ a.toList, c.isAlphanum = true) (hb : ∀ c ∈ b.toList, c.isAlphanum = true)
    (h : escapeWord a = escapeWord b) : a = b := by
  have hreserved : a ∈ reserved ↔ b ∈ reserved := by
    rw [← underscore_mem_escapeWord ha, h, underscore_mem_escapeWord hb]
  by_cases hra : a ∈ reserved
  · have hrb := hreserved.1 hra
    rwa [escapeWord, if_pos hra, escapeWord, if_pos hrb, String.append_left_inj] at h
  · have hrb := mt hreserved.2 hra
    have hkeywords : a ∈ keywords ↔ b ∈ keywords := by
      rw [← sharp_mem_escapeWord ha hra, h, sharp_mem_escapeWord hb hrb]
    rw [escapeWord, if_neg hra, escapeWord, if_neg hrb] at h
    by_cases hka : a ∈ keywords
    · have hkb := hkeywords.1 hka
      rwa [if_pos hka, if_pos hkb, String.append_right_inj] at h
    · have hkb := mt hkeywords.2 hka
      rwa [if_neg hka, if_neg hkb] at h

end escapes

/-! ## The names of operations -/

theorem operationStem_data (stem : String) : operationStem (stem ++ "Data") = stem := by
  simp [operationStem]

/-- The name of a constant is no word that is escaped: those end in lower case or in an underscore. -/
theorem escapeWord_constant (stem : String) (kind : OperationKind) :
    escapeWord (stem ++ "_" ++ kindSuffix kind) = stem ++ "_" ++ kindSuffix kind := by
  have hlast : (stem ++ "_" ++ kindSuffix kind).toList.getLast? = (kindSuffix kind).toList.getLast? := by
    cases kind <;> simp [kindSuffix]
  have hreserved : ∀ w ∈ reserved ++ keywords, w.toList.getLast? ≠ (kindSuffix kind).toList.getLast? := by
    cases kind <;> decide
  have hfree : stem ++ "_" ++ kindSuffix kind ∉ reserved ++ keywords := fun hmem => hreserved _ hmem hlast
  rw [List.mem_append, not_or] at hfree
  rw [escapeWord, if_neg hfree.1, if_neg hfree.2]

/-- The name of a constant shows the kind of its operation, which stands after the last underscore. -/
theorem constant_injective {stem stem' : String} {kind kind' : OperationKind}
    (h : stem ++ "_" ++ kindSuffix kind = stem' ++ "_" ++ kindSuffix kind') : stem = stem' ∧ kind = kind' := by
  have hkind : kind = kind' := by
    have hchars := congrArg (fun w => w.toList.reverse) h
    cases kind <;> cases kind' <;> simp [kindSuffix] at hchars <;> rfl
  subst hkind
  rw [String.append_left_inj, String.append_left_inj] at h
  exact ⟨h, rfl⟩

end Emission

end TypedQuery
