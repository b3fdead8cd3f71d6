/-
Identifiers for types and variants. Whatever a GraphQL name begins with, the
name of its type begins with a capital letter (`head?_typeName`). The words of
the language are written in small letters, all but `Self`; so every other name
of a type is an identifier as it stands (`escapeWord_typeName`).
-/
import TypedQuery.Proofs.OperationNames

namespace TypedQuery

namespace Emission

section types

variable {n : String}

/-- The name of a type begins with a capital letter. -/
theorem head?_typeName (h : IsPlain n) : (typeName n).toList.head?.any Char.isUpper = true := by
  have hfirst := (Text.head?_joined (words_plain h)).1
  have halpha := Text.isAlphanum_of_mem_upperCamel h
  unfold typeName withStem
  split
  next => simp [String.toList_append]
  next hno =>
    rw [String.toList_ofList]
    unfold Text.upperCamel at hno halpha ⊢
    cases hcamel : (Text.words n.toList).flatMap Text.capitalized with
    | nil => simp [hcamel] at hno
    | cons c camel =>
      rw [hcamel] at hfirst hno halpha
      obtain ⟨c₀, -, rfl⟩ := Option.map_eq_some_iff.1 hfirst.symm
      have hletter : c₀.toUpper.isAlphanum = true := halpha _ List.mem_cons_self
      have hdigit : c₀.toUpper.isDigit = false := by simpa using hno
      simpa [Char.isAlphanum, hdigit] using hletter

/-- Of the words that are escaped one begins with a capital letter. -/
theorem eq_self_of_escaped : ∀ w ∈ reserved ++ keywords, w.toList.head?.any Char.isUpper = true → w = "Self" := by
  decide

/-- The name of a type stays as it is unless it is the word `Self`. -/
theorem escapeWord_typeName (h : IsPlain n) :
    escapeWord (typeName n) = if typeName n = "Self" then "Self_" else typeName n := by
  split
  next hself =>
    rw [hself, escapeWord, if_pos (by decide)]
    rfl
  next hself =>
    have hfree : typeName n ∉ reserved ++ keywords := fun hmem =>
      hself (eq_self_of_escaped _ hmem (head?_typeName h))
    rw [List.mem_append, not_or] at hfree
    rw [escapeWord, if_neg hfree.1, if_neg hfree.2]

/-- **Every GraphQL name gives the name of a type or a variant that is a legal identifier**, namely the name itself,
with an underscore if it is `Self`. -/
theorem typeName_legal (h : isName n = true) :
    ∃ i, identifier? (typeName n) = some i ∧ isLegal i = true ∧
      i = if typeName n = "Self" then "Self_" else typeName n := by
  have hplain : IsPlain n := isPlain_of_isName h
  have hname : isName (typeName n) = true := isName_typeName hplain
  exact ⟨_, identifier?_of_isName hname, isLegal_escapeWord hname, escapeWord_typeName hplain⟩

/-- A name of underscores and digits only, and one that becomes a word of the language. -/
theorem self_legal : isName "_9" = true ∧ isName "__self" = true ∧
    ((∃ i, identifier? (typeName "_9") = some i ∧ isLegal i = true ∧ i = "T9") ∧
      ∃ i, identifier? (typeName "__self") = some i ∧ isLegal i = true ∧ i = "Self_") := by
  have hnine : isName "_9" = true := by decide
  have hself : isName "__self" = true := by decide
  have hcamel : typeName "_9" = "T9" ∧ typeName "__self" = "Self" := by decide +kernel
  have hlegal := typeName_legal hnine
  have hlegal' := typeName_legal hself
  simp only [hcamel.1, hcamel.2] at hlegal hlegal' ⊢
  exact ⟨hnine, hself, by simpa using hlegal, by simpa using hlegal'⟩

end types

end Emission

end TypedQuery
