/-
Identifiers of fields. The fields of a structure are named one after another:
each takes the first of its candidates that no field before it has. The names
are escaped afterwards. A word that cannot be raw becomes longer by an
underscore then, and no name that a field can get ends like that
(`fieldCandidate_ne_longer`): it ends in a letter or a digit, or is `field_`.
So escaping leaves the names apart, and all of them become identifiers
(`fields_identifiers`).
-/
import TypedQuery.Proofs.Failures
import TypedQuery.Proofs.Identifiers
import TypedQuery.Proofs.WireNames

namespace TypedQuery

theorem getLast?_intercalate {α : Type} {separator : List α} {parts : List (List α)} (h : parts ≠ [])
    (hparts : ∀ w ∈ parts, w ≠ []) :
    ∃ w ∈ parts, (separator.intercalate parts).getLast? = w.getLast? := by
  induction parts with
  | nil => exact absurd rfl h
  | cons w parts ih =>
    cases parts with
    | nil => exact ⟨w, List.mem_singleton_self w, by simp⟩
    | cons v parts =>
      obtain ⟨u, hu, hlast⟩ := ih (List.cons_ne_nil v parts) (List.forall_mem_cons.1 hparts).2
      obtain ⟨c, hc⟩ := Option.ne_none_iff_exists'.1 (mt List.getLast?_eq_none_iff.1 (hparts u (.tail w hu)))
      refine ⟨u, .tail w hu, ?_⟩
      have hsplit : separator.intercalate (w :: v :: parts) =
          w ++ separator ++ separator.intercalate (v :: parts) := by
        simp [List.intercalate, List.intersperse_cons_cons]
      rw [hsplit, List.getLast?_append, hlast, hc, Option.some_or]

namespace Text

/-- No word is empty. -/
theorem ne_nil_of_mem_cutWords {mode : CaseMode} {reversed text : List Char} :
    ∀ w ∈ cutWords mode reversed text, w ≠ [] := by
  have hclosed : ∀ {reversed : List Char}, ∀ w ∈ closeWord reversed, w ≠ [] := by
    intro reversed w hw
    unfold closeWord at hw
    split at hw
    next => cases hw
    next h =>
      rw [List.mem_singleton.1 hw]
      simpa using h
  induction text generalizing mode reversed with
  | nil => exact hclosed
  | cons c text ih =>
    rw [cutWords]
    split
    next => exact List.forall_mem_append.2 ⟨hclosed, ih⟩
    next =>
      split
      next => exact List.forall_mem_append.2 ⟨hclosed, ih⟩
      next =>
        split
        next => exact List.forall_mem_append.2 ⟨hclosed, ih⟩
        next => exact ih

section snake

variable {text : List Char}

/-- The words between the underscores of a snake are made of letters and digits. -/
theorem isAlphanum_of_mem_lowerWords (htext : ∀ c ∈ text, isNameContinue c = true) :
    ∀ w ∈ (words text).map lowerWord, w ≠ [] ∧ ∀ c ∈ w, c.isAlphanum = true := by
  refine List.forall_mem_map.2 fun w hw => ?_
  have hword := isAlphanum_of_mem_cutWords htext (List.forall_mem_nil _) w hw
  rw [lowerWord_ascii fun c hc => ascii_of_isAlphanum (hword c hc)]
  refine ⟨mt List.map_eq_nil_iff.1 (ne_nil_of_mem_cutWords w hw), List.forall_mem_map.2 fun c hc => ?_⟩
  exact isAlphanum_toLower (hword c hc)

theorem isNameContinue_of_mem_snake (htext : ∀ c ∈ text, isNameContinue c = true) :
    ∀ c ∈ snake text, isNameContinue c = true :=
  isNameContinue_of_mem_joined fun w hw => (isAlphanum_of_mem_lowerWords htext w hw).2

/-- A snake ends in a letter or a digit. -/
theorem isAlphanum_last_snake (htext : ∀ c ∈ text, isNameContinue c = true) {c : Char}
    (hc : (snake text).getLast? = some c) : c.isAlphanum = true := by
  have hwords := isAlphanum_of_mem_lowerWords htext
  unfold snake at hc
  generalize (words text).map lowerWord = parts at hwords hc
  by_cases hempty : parts = []
  · simp [hempty] at hc
  · obtain ⟨w, hw, hlast⟩ : ∃ w ∈ parts, (['_'].intercalate parts).getLast? = w.getLast? :=
      getLast?_intercalate hempty fun w hw => (hwords w hw).1
    exact (hwords w hw).2 c (List.mem_of_getLast? (hlast ▸ hc))

end snake

end Text

namespace Emission

/-! ## The names of fields -/

section names

variable {n a b w : String} {taken : List String} {p : Property} {ps : List Property}

theorem isName_fieldName (h : IsPlain n) : isName (fieldName n) = true :=
  isName_withStem (by decide) (Text.isNameContinue_of_mem_snake h)

/-- Whatever number is tried, the name is one. -/
theorem isName_fieldCandidate (h : IsPlain n) (k : Nat) : isName (fieldCandidate (fieldName n) k) = true := by
  cases k with
  | zero => exact isName_fieldName h
  | succ k =>
    have hdigits : IsPlain (toString (k + 2)) := isPlain_of_digits fun c hc =>
      Nat.isDigit_of_mem_toDigits (by omega) (by omega) (Nat.toList_repr ▸ hc)
    exact isName_append (isName_append (isName_fieldName h) (isPlain_of_isName (by decide))) hdigits

theorem isAlphanum_last_fieldName (h : IsPlain n) (hne : fieldName n ≠ "field_") {c : Char}
    (hc : (fieldName n).toList.getLast? = some c) : c.isAlphanum = true := by
  have hsnake : Text.snake n.toList ≠ [] := by
    intro hempty
    exact hne (by simp [fieldName, withStem, hempty])
  refine Text.isAlphanum_last_snake h ?_
  rw [← hc, fieldName, withStem]
  split
  next => rw [String.toList_append, List.getLast?_append_of_ne_nil _ (by simpa using hsnake), String.toList_ofList]
  next => rw [String.toList_ofList]

/-- No name of a field is a reserved word with an underscore behind it. -/
theorem fieldCandidate_ne_longer (h : IsPlain n) (hw : w ∈ reserved) (k : Nat) :
    fieldCandidate (fieldName n) k ≠ w ++ "_" := by
  intro heq
  have hlast : (fieldCandidate (fieldName n) k).toList.getLast? = some '_' := by simp [heq]
  cases k with
  | zero =>
    have hfield : ∀ w ∈ reserved, "field_" ≠ w ++ "_" := by decide
    by_cases hstem : fieldName n = "field_"
    · exact hfield w hw (hstem.symm.trans heq)
    · exact absurd (isAlphanum_last_fieldName h hstem hlast) (by decide)
  | succ k =>
    have hdigits : (toString (k + 2)).toList ≠ [] := by simp
    rw [fieldCandidate, String.toList_append, List.getLast?_append_of_ne_nil _ hdigits] at hlast
    have hdigit : Char.isDigit '_' = true :=
      Nat.isDigit_of_mem_toDigits (by omega) (by omega) (Nat.toList_repr ▸ List.mem_of_getLast? hlast)
    exact absurd hdigit (by decide)

/-- Names that are no longer forms of reserved words are kept apart by escaping. -/
theorem escapeWord_injOn (ha : IsPlain a) (hb : IsPlain b) (ha' : ∀ w ∈ reserved, a ≠ w ++ "_")
    (hb' : ∀ w ∈ reserved, b ≠ w ++ "_") (h : escapeWord a = escapeWord b) : a = b := by
  have hraw : ∀ {a b : String}, IsPlain b → "r#" ++ a ≠ b := by
    rintro a _ hplain rfl
    exact absurd (hplain '#' (by simp)) (by decide)
  have hlonger : ∀ {a : String}, IsPlain a → IsPlain (a ++ "_") := fun hplain =>
    isPlain_append.2 ⟨hplain, isPlain_of_isName (by decide)⟩
  unfold escapeWord at h
  split at h
  next hreserved =>
    split at h
    next => exact (String.append_left_inj _).1 h
    next =>
      split at h
      next => exact absurd h.symm (hraw (hlonger ha))
      next => exact absurd h.symm (hb' a hreserved)
  next =>
    split at h
    next =>
      split at h
      next => exact absurd h (hraw (hlonger hb))
      next =>
        split at h
        next => exact (String.append_right_inj _).1 h
        next => exact absurd h (hraw hb)
    next =>
      split at h
      next hreserved => exact absurd h (ha' b hreserved)
      next =>
        split at h
        next => exact absurd h.symm (hraw ha)
        next => exact h

/-- What is taken once stays taken. -/
theorem fieldNames_take (taken : List String) (ps : List Property) (i : Nat) :
    (fieldNames taken ps).take i = fieldNames taken (ps.take i) := by
  induction ps generalizing taken i with
  | nil => simp [fieldNames]
  | cons p ps ih =>
    cases i with
    | zero => rfl
    | succ i => rw [fieldNames, List.take_succ_cons, List.take_succ_cons, fieldNames, ih]

/-- The first free candidate comes no later than there are names that are taken. -/
theorem freshName_within (taken : List String) (base : String) :
    ∃ k ≤ taken.length, freshName taken base = fieldCandidate base k ∧ fieldCandidate base k ∉ taken ∧
      ∀ j < k, fieldCandidate base j ∈ taken := by
  obtain ⟨k, hname, hfree, hbefore⟩ := freshName_spec taken base
  obtain ⟨j, hj, hnew⟩ := Registry.exists_free (fieldCandidate_injective base) taken
  refine ⟨k, ?_, hname, hfree, hbefore⟩
  by_contra hlater
  exact hnew (hbefore j (by omega))

theorem fieldNames_nodup (h : taken.Nodup) : (taken ++ fieldNames taken ps).Nodup := by
  induction ps generalizing taken with
  | nil => simpa [fieldNames] using h
  | cons p ps ih =>
    obtain ⟨k, hname, hfree, -⟩ := freshName_spec taken (fieldName p.name)
    have hlonger : (taken ++ [freshName taken (fieldName p.name)]).Nodup := by
      rw [hname, ← List.concat_eq_append]
      exact h.concat hfree
    simpa [fieldNames] using ih hlonger

theorem mem_fieldNames (h : w ∈ fieldNames taken ps) : ∃ p ∈ ps, ∃ k, w = fieldCandidate (fieldName p.name) k := by
  induction ps generalizing taken with
  | nil => cases h
  | cons p ps ih =>
    rcases List.mem_cons.1 h with rfl | h
    · obtain ⟨k, hname, -, -⟩ := freshName_spec taken (fieldName p.name)
      exact ⟨p, List.mem_cons_self, k, hname⟩
    · obtain ⟨q, hq, hcandidate⟩ := ih h
      exact ⟨q, List.mem_cons_of_mem p hq, hcandidate⟩

end names

/-! ## Their identifiers -/

section identifiers

variable {kinds : Kinds} {role : Role} {taken : List String} {name : String} {p : Property} {ps : List Property}
  {f : Field} {fs : List Field} {e : EmissionError}

/-- Fields get the identifiers for their names. -/
theorem fields_ok (h : fields kinds role taken ps = .ok fs) :
    fs.map (·.identifier) = (fieldNames taken ps).map escapeWord := by
  have hzip : (ps.zip (fieldNames taken ps)).map Prod.snd = fieldNames taken ps :=
    List.map_snd_zip (fieldNames_length taken ps).le
  rw [← hzip, List.map_map, eq_comm, ← List.forall₂_eq_eq_eq, List.forall₂_map_left_iff, List.forall₂_map_right_iff]
  refine (fields_forall₂ h).imp fun x f hf => ?_
  obtain ⟨i, hi, hf⟩ := bind_eq_ok.1 hf
  obtain ⟨_, -, hf⟩ := bind_eq_ok.1 hf
  cases hf
  exact (identifier_eq_ok hi).symm

/-- If there are no fields, then one of them has no type. -/
theorem fields_error (hps : ∀ p ∈ ps, IsPlain p.name) (h : fields kinds role taken ps = .error e) :
    ∃ p ∈ ps, fieldType kinds (role = .input) p.type = .error e := by
  induction ps generalizing taken with
  | nil => cases h
  | cons p ps ih =>
    obtain ⟨hp, hps⟩ := List.forall_mem_cons.1 hps
    obtain ⟨k, hname, -, -⟩ := freshName_spec taken (fieldName p.name)
    have hnamed : isName (freshName taken (fieldName p.name)) = true := hname ▸ isName_fieldCandidate hp k
    rcases bind_eq_error.1 h with h | ⟨f, -, h⟩
    · rcases bind_eq_error.1 h with h | ⟨i, -, h⟩
      · rw [identifier_of_isName hnamed] at h
        cases h
      · rcases bind_eq_error.1 h with htype | ⟨type, -, h⟩
        · exact ⟨p, List.mem_cons_self, htype⟩
        · cases h
    · rcases bind_eq_error.1 h with h | ⟨more, -, h⟩
      · obtain ⟨q, hq, htype⟩ := ih hps h
        exact ⟨q, List.mem_cons_of_mem p hq, htype⟩
      · cases h

/-- **Fields have identifiers of their own.** For properties with GraphQL names, repeated ones too, and for each role,
every field finds the first of its candidates that no field before it has, after no more of them than there are fields
before it. All names become legal identifiers, no two the same, and these are the ones that the fields get, if every
property has a type. -/
theorem fields_identifiers (kinds : Kinds) (role : Role) (ps : List Property) (hps : ∀ p ∈ ps, isName p.name = true) :
    (∀ i p, ps[i]? = some p → ∃ k ≤ i, (fieldNames [] ps)[i]? = some (fieldCandidate (fieldName p.name) k) ∧
      fieldCandidate (fieldName p.name) k ∉ (fieldNames [] ps).take i ∧
      ∀ j < k, fieldCandidate (fieldName p.name) j ∈ (fieldNames [] ps).take i) ∧
    ∃ ids : List String, (fieldNames [] ps).map identifier? = ids.map some ∧ ids.length = ps.length ∧ ids.Nodup ∧
      (∀ i ∈ ids, isLegal i = true) ∧
      (∀ fs, fields kinds role [] ps = .ok fs → fs.map (·.identifier) = ids) ∧
      ∀ e, fields kinds role [] ps = .error e → ∃ p ∈ ps, fieldType kinds (role = .input) p.type = .error e := by
  have hplain : ∀ p ∈ ps, IsPlain p.name := fun p hp => isPlain_of_isName (hps p hp)
  have hnames : ∀ n ∈ fieldNames [] ps, isName n = true ∧ ∀ w ∈ reserved, n ≠ w ++ "_" := by
    intro n hn
    obtain ⟨p, hp, k, rfl⟩ := mem_fieldNames hn
    exact ⟨isName_fieldCandidate (hplain p hp) k, fun w hw => fieldCandidate_ne_longer (hplain p hp) hw k⟩
  refine ⟨fun i p hp => ?_, (fieldNames [] ps).map escapeWord, ?_, ?_, ?_, ?_, fun fs => fields_ok,
    fun e => fields_error hplain⟩
  · obtain ⟨k, hk, hname, hfree, hbefore⟩ := freshName_within (fieldNames [] (ps.take i)) (fieldName p.name)
    rw [fieldNames_length, List.length_take] at hk
    rw [fieldNames_take, fieldNames_get hp, List.nil_append, hname]
    exact ⟨k, by omega, rfl, hfree, hbefore⟩
  · rw [List.map_map]
    exact List.map_congr_left fun n hn => identifier?_of_isName (hnames n hn).1
  · rw [List.length_map, fieldNames_length]
  · have hnodup : ([] ++ fieldNames [] ps).Nodup := fieldNames_nodup List.nodup_nil
    exact hnodup.map_on fun a ha b hb => escapeWord_injOn (isPlain_of_isName (hnames a ha).1)
      (isPlain_of_isName (hnames b hb).1) (hnames a ha).2 (hnames b hb).2
  · exact List.forall_mem_map.2 fun n hn => isLegal_escapeWord (hnames n hn).1

end identifiers

/-! Keys that meet each other's numbers, keys with no words in them, and words of the language. -/

def meetingKeys : List Property :=
  ["a_2", "a", "A", "self", "Self", "_", "__", "type", "Type", "field"].map keyed

theorem meetingKeys_identifiers : (∀ p ∈ meetingKeys, isName p.name = true) ∧
    ∃ fs, fields [] .output [] meetingKeys = .ok fs ∧ (fs.map (·.identifier)).Nodup ∧
      (∀ i ∈ fs.map (·.identifier), isLegal i = true) ∧ fs.map (·.identifier) =
        ["a_2", "a", "a_3", "self_", "self_2", "field_", "field__2", "r#type", "type_2", "field"] := by
  have hnames : ∀ p ∈ meetingKeys, isName p.name = true := by decide
  obtain ⟨-, ids, -, -, hnodup, hlegal, hids, herror⟩ := fields_identifiers [] .output meetingKeys hnames
  have htypes : ∀ p ∈ meetingKeys, (fieldType [] false p.type).isOk = true := by decide +kernel
  cases hfields : fields [] .output [] meetingKeys with
  | error e =>
    obtain ⟨p, hp, htype⟩ := herror e hfields
    have htype : fieldType [] false p.type = .error e := htype
    exact absurd (htypes p hp) (by simp [htype, Except.isOk, Except.toBool])
  | ok fs =>
    have hmap := hids fs hfields
    refine ⟨hnames, fs, rfl, hmap ▸ hnodup, hmap ▸ hlegal, ?_⟩
    rw [fields_ok hfields]
    decide +kernel

end Emission

end TypedQuery
