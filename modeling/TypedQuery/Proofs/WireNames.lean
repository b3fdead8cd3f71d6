/-
Names on the wire. A field is read and written under its rename attribute, or
else under its identifier without the mark of a raw one. Whether it is renamed
is decided on its name before that is escaped: a keyword as a raw identifier
still speaks the response key, but a reserved word gets an underscore and no
attribute. So a field speaks its key unless that is `self`, `super` or `crate`
and the first to be called so (`wireName_eq_iff`).
-/
import TypedQuery.Proofs.ItemNames

namespace TypedQuery.Emission

/-- An identifier without the mark of a raw one. -/
def withoutMark (identifier : String) : String :=
  match identifier.toList with
  | 'r' :: '#' :: raw => String.ofList raw
  | _ => identifier

/-- The name under which a field is read and written. -/
def Field.wireName (f : Field) : String := f.rename?.getD (withoutMark f.identifier)

/-! ## Candidate names -/

section candidates

variable {taken : List String} {base w : String}

theorem fieldCandidate_succ_ne (base : String) (k : Nat) : fieldCandidate base (k + 1) ≠ base := by
  intro h
  simp [fieldCandidate, String.append_assoc] at h

theorem fieldCandidate_injective (base : String) : Function.Injective (fieldCandidate base) := by
  intro i j h
  match i, j with
  | 0, 0 => rfl
  | 0, j + 1 => exact absurd h.symm (fieldCandidate_succ_ne base j)
  | i + 1, 0 => exact absurd h (fieldCandidate_succ_ne base i)
  | i + 1, j + 1 => exact Registry.candidate_injective (base ++ "_") h

/-- A fresh name is the first candidate that is not taken. -/
theorem freshName_spec (taken : List String) (base : String) :
    ∃ k, freshName taken base = fieldCandidate base k ∧ fieldCandidate base k ∉ taken ∧
      ∀ j < k, fieldCandidate base j ∈ taken := by
  obtain ⟨k, hk, hfree⟩ := Registry.exists_free (fieldCandidate_injective base) taken
  have hsome : (((List.range (taken.length + 1)).map (fieldCandidate base)).find? (· ∉ taken)).isSome := by
    rw [List.find?_isSome]
    exact ⟨_, List.mem_map_of_mem (List.mem_range.2 hk), by simpa using hfree⟩
  obtain ⟨n, hn⟩ := Option.isSome_iff_exists.1 hsome
  have hfresh : freshName taken base = n := congrArg (Option.getD · base) hn
  obtain ⟨hnew, i, hi, hcandidate, hbefore⟩ := List.find?_eq_some_iff_getElem.1 hn
  rw [List.getElem_map, List.getElem_range] at hcandidate
  subst hcandidate
  exact ⟨i, hfresh, by simpa using hnew, fun j hj => by simpa using hbefore j hj⟩

theorem freshName_eq_base : freshName taken base = base ↔ base ∉ taken := by
  obtain ⟨k, hname, hfree, hbefore⟩ := freshName_spec taken base
  constructor
  · intro h
    rwa [← hname, h] at hfree
  · intro h
    cases k with
    | zero => exact hname
    | succ k => exact absurd (hbefore 0 (Nat.succ_pos k)) h

/-- A candidate with a number is no reserved word: none of these has a digit. -/
theorem fieldCandidate_not_reserved (base : String) (k : Nat) : fieldCandidate base (k + 1) ∉ reserved := by
  have hwords : ∀ w ∈ reserved, w.toList.any Char.isDigit = false := by decide
  obtain ⟨c, hc⟩ := List.exists_mem_of_ne_nil _ (Nat.toDigits_ne_nil (n := k + 2) (b := 10))
  have hdigit : c.isDigit = true := Nat.isDigit_of_mem_toDigits (by omega) (by omega) hc
  have hmem : c ∈ (fieldCandidate base (k + 1)).toList := by
    rw [fieldCandidate, String.toList_append]
    exact List.mem_append_right _ (Nat.toList_repr ▸ hc)
  intro h
  exact absurd (List.any_eq_true.2 ⟨c, hmem, hdigit⟩) (by simp [hwords _ h])

/-- A reserved word is taken by the first field that is called so. -/
theorem freshName_eq_reserved (hw : w ∈ reserved) : freshName taken base = w ↔ base = w ∧ w ∉ taken := by
  constructor
  · intro h
    obtain ⟨k, hname, hfree, -⟩ := freshName_spec taken base
    rw [hname] at h
    subst h
    cases k with
    | zero => exact ⟨rfl, hfree⟩
    | succ k => exact absurd hw (fieldCandidate_not_reserved base k)
  · rintro ⟨rfl, hfree⟩
    exact freshName_eq_base.2 hfree

end candidates

/-! ## The names of fields -/

/-- The names that the fields for properties get, before they are escaped. -/
def fieldNames (taken : List String) : List Property → List String
  | [] => []
  | p :: rest =>
    let name := freshName taken (fieldName p.name)
    name :: fieldNames (taken ++ [name]) rest

section fields

variable {kinds : Kinds} {role : Role} {taken : List String} {p : Property} {ps : List Property} {f : Field}
  {fs : List Field} {w name : String}

/-- Each property becomes one field, under its name. -/
theorem fields_forall₂ (h : fields kinds role taken ps = .ok fs) :
    List.Forall₂ (fun x f => field kinds role x.2 x.1 = .ok f) (ps.zip (fieldNames taken ps)) fs := by
  induction ps generalizing taken fs with
  | nil =>
    cases h
    exact .nil
  | cons p ps ih =>
    obtain ⟨f, hf, h⟩ := bind_eq_ok.1 h
    obtain ⟨more, hmore, h⟩ := bind_eq_ok.1 h
    cases h
    exact .cons hf (ih hmore)

theorem fieldNames_length (taken : List String) (ps : List Property) : (fieldNames taken ps).length = ps.length := by
  induction ps generalizing taken with
  | nil => rfl
  | cons p ps ih => simp [fieldNames, ih]

theorem fieldNames_get {i : Nat} (h : ps[i]? = some p) :
    (fieldNames taken ps)[i]? = some (freshName (taken ++ fieldNames taken (ps.take i)) (fieldName p.name)) := by
  induction ps generalizing taken i with
  | nil => cases h
  | cons q ps ih =>
    cases i with
    | zero =>
      cases h
      simp [fieldNames]
    | succ i =>
      rw [List.take_succ_cons, fieldNames, fieldNames, List.getElem?_cons_succ, ih h, List.append_assoc]
      rfl

/-- A reserved word is the name of a field if some key becomes that word. -/
theorem reserved_mem_fieldNames (hw : w ∈ reserved) :
    w ∈ taken ++ fieldNames taken ps ↔ w ∈ taken ∨ ∃ p ∈ ps, fieldName p.name = w := by
  induction ps generalizing taken with
  | nil => simp [fieldNames]
  | cons p ps ih =>
    have hstep : w ∈ taken ++ [freshName taken (fieldName p.name)] ↔ w ∈ taken ∨ fieldName p.name = w := by
      rw [List.mem_append, List.mem_singleton, eq_comm, freshName_eq_reserved hw]
      tauto
    rw [fieldNames, ← List.singleton_append, ← List.append_assoc, ih, hstep, or_assoc]
    simp

/-! ## What a field speaks -/

/-- The reserved words that a key can become. -/
theorem fieldName_eq_self (hw : w ∈ reserved) : fieldName w = w ↔ w ∈ ["self", "super", "crate"] := by
  revert w
  decide +kernel

theorem withoutMark_keyword (name : String) : withoutMark ("r#" ++ name) = name := by
  simp [withoutMark]

theorem withoutMark_of_not_mem (h : '#' ∉ name.toList) : withoutMark name = name := by
  unfold withoutMark
  split
  next heq => simp [heq] at h
  next => rfl

/-- Escaping a name can be undone but for reserved words. -/
theorem withoutMark_escapeWord (h : '#' ∉ name.toList) : withoutMark (escapeWord name) = name ↔ name ∉ reserved := by
  unfold escapeWord
  split
  next hreserved =>
    have hlonger : '#' ∉ (name ++ "_").toList := by simpa using h
    rw [withoutMark_of_not_mem hlonger]
    simp [hreserved]
  next hreserved =>
    split
    next => simp [withoutMark_keyword, hreserved]
    next => simp [withoutMark_of_not_mem h, hreserved]

/-- A field speaks its key unless it is called by that key, and the key is a reserved word. -/
theorem field_wireName (hp : isName p.name = true) (h : field kinds role name p = .ok f) :
    f.wireName = p.name ↔ ¬ (name = p.name ∧ p.name ∈ reserved) := by
  obtain ⟨i, hi, h⟩ := bind_eq_ok.1 h
  obtain ⟨type, -, h⟩ := bind_eq_ok.1 h
  cases h
  rw [identifier_eq_ok hi]
  unfold Field.wireName
  dsimp only
  by_cases hname : name = p.name
  · have hsharp : '#' ∉ p.name.toList := fun hmem =>
      absurd (isNameContinue_of_isName hp _ hmem) (by decide)
    rw [hname, if_pos rfl, Option.getD_none, withoutMark_escapeWord hsharp]
    simp
  · rw [if_neg hname, Option.getD_some]
    simp [hname]

/-- **Fields on the wire.** For properties with GraphQL names and for each role, there is one field for each
property, and its name on the wire is the property's name unless that is `self`, `super` or `crate` and the name of no
earlier property becomes the same word. -/
theorem wireName_eq_iff (hps : ∀ p ∈ ps, isName p.name = true) (h : fields kinds role [] ps = .ok fs) :
    fs.length = ps.length ∧ ∀ i p f, ps[i]? = some p → fs[i]? = some f →
      (f.wireName = p.name ↔
        ¬ (p.name ∈ ["self", "super", "crate"] ∧ ∀ q ∈ ps.take i, fieldName q.name ≠ p.name)) := by
  have hall := fields_forall₂ h
  refine ⟨?_, fun i p f hp hf => ?_⟩
  · rw [← hall.length_eq, List.length_zip, fieldNames_length, Nat.min_self]
  have hfield : field kinds role (freshName (fieldNames [] (ps.take i)) (fieldName p.name)) p = .ok f := by
    have hzip : (ps.zip (fieldNames [] ps))[i]? =
        some (p, freshName (fieldNames [] (ps.take i)) (fieldName p.name)) :=
      List.getElem?_zip_eq_some.2 ⟨hp, fieldNames_get hp⟩
    obtain ⟨hi, hx⟩ := List.getElem?_eq_some_iff.1 hzip
    obtain ⟨hj, hy⟩ := List.getElem?_eq_some_iff.1 hf
    have hget := hall.get hi hj
    rwa [List.get_eq_getElem, List.get_eq_getElem, hx, hy] at hget
  have htaken : p.name ∈ reserved → (p.name ∈ [] ++ fieldNames [] (ps.take i) ↔
      p.name ∈ [] ∨ ∃ q ∈ ps.take i, fieldName q.name = p.name) := reserved_mem_fieldNames
  rw [field_wireName (hps p (List.mem_of_getElem? hp)) hfield, not_iff_not]
  constructor
  · rintro ⟨hname, hreserved⟩
    obtain ⟨hbase, hfree⟩ := (freshName_eq_reserved hreserved).1 hname
    refine ⟨(fieldName_eq_self hreserved).1 hbase, fun q hq hsame => hfree ?_⟩
    exact (htaken hreserved).2 (.inr ⟨q, hq, hsame⟩)
  · rintro ⟨hword, hfirst⟩
    have hreserved : p.name ∈ reserved := by
      revert hword
      generalize p.name = w
      revert w
      decide
    refine ⟨(freshName_eq_reserved hreserved).2 ⟨(fieldName_eq_self hreserved).2 hword, fun hmem => ?_⟩, hreserved⟩
    obtain ⟨q, hq, hsame⟩ := ((htaken hreserved).1 hmem).resolve_left (by simp)
    exact hfirst q hq hsame

/-- Fields that are made, by their names on the wire. -/
theorem exists_fields {wires : List String}
    (h : (fields kinds role taken ps).toOption.map (·.map Field.wireName) = some wires) :
    ∃ fs, fields kinds role taken ps = .ok fs ∧ fs.map Field.wireName = wires := by
  obtain ⟨fs, hfs, hwires⟩ := Option.map_eq_some_iff.1 h
  cases hfields : fields kinds role taken ps with
  | error e => simp [hfields, Except.toOption] at hfs
  | ok fs' =>
    obtain rfl : fs' = fs := by simpa [hfields, Except.toOption] using hfs
    exact ⟨fs', rfl, hwires⟩

end fields

/-! A keyword becomes a raw identifier; a key in another style, and one whose word is taken, are renamed. -/

/-- A property of the type `Int` under a key of its own name. -/
def keyed (key : String) : Property := ⟨key, key, .named (.scalar "Int" "i32") true, none⟩

theorem laterSelf_speaks : ∃ fs, fields [] .input [] (["type", "createdAt", "Self", "self"].map keyed) = .ok fs ∧
    (∀ p ∈ ["type", "createdAt", "Self", "self"].map keyed, isName p.name = true) ∧
    ∃ f, fs[3]? = some f ∧ f.wireName = "self" := by
  obtain ⟨fs, hfs, -⟩ : ∃ fs, fields [] .input [] (["type", "createdAt", "Self", "self"].map keyed) = .ok fs ∧
      fs.map Field.wireName = ["type", "createdAt", "Self", "self"] := exists_fields (by decide +kernel)
  have hnames : ∀ p ∈ ["type", "createdAt", "Self", "self"].map keyed, isName p.name = true := by decide
  obtain ⟨hlength, hwire⟩ := wireName_eq_iff hnames hfs
  obtain ⟨f, hf⟩ : ∃ f, fs[3]? = some f := ⟨_, List.getElem?_eq_getElem (by simp [hlength])⟩
  refine ⟨fs, hfs, hnames, f, hf, (hwire 3 (keyed "self") f rfl hf).2 fun h => ?_⟩
  -- the key `Self` in front of it has become the same word
  exact absurd (h.2 (keyed "Self") (by simp)) (by decide +kernel)

/-- A reserved word is not renamed, but its identifier gets an underscore. -/
theorem self_unspoken : isName (keyed "self").name = true ∧
    ∃ f, fields [] .output [] [keyed "self"] = .ok [f] ∧ f.wireName ≠ (keyed "self").name := by
  obtain ⟨fs, hfs, hwires⟩ : ∃ fs, fields [] .output [] [keyed "self"] = .ok fs ∧ fs.map Field.wireName = ["self_"] :=
    exists_fields (by decide +kernel)
  obtain ⟨f, rfl, hwire⟩ := List.map_eq_singleton_iff.1 hwires
  refine ⟨by decide, f, hfs, ?_⟩
  rw [hwire]
  decide

end TypedQuery.Emission
