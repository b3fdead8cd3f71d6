/-
Occurrences of fields among expanded selections, and what field collection
makes of them. `Occurs applies` sees through the fragments whose conditions
`applies` to, and adds up the flags on the way. `fieldsIn` lists the same
occurrences in the order of collection: collecting is inserting them one
after the other (`collect_eq_foldlM`), so every collected field is the merge
of the occurrences of its key (`Merged`).
-/
import TypedQuery.Collection
import Mathlib.Data.List.Induction
import Mathlib.Data.List.Nodup

namespace TypedQuery

theorem bind_eq_ok {ε α β : Type} {x : Except ε α} {f : α → Except ε β} {b : β} :
    (x >>= f) = .ok b ↔ ∃ a, x = .ok a ∧ f a = .ok b := by
  cases x <;> simp [bind, Except.bind]

namespace Expanded

/-- A field among `selections`, or in fragments among them whose conditions all satisfy `applies`:
its key, its name, whether it or a fragment around it is conditional, and the selections below. -/
inductive Occurs (applies : String → Prop) :
    List Expanded → String → String → Bool → List Expanded → Prop
  | field {selections key name c sub} (h : field key name c sub ∈ selections) :
    Occurs applies selections key name c sub
  | fragment {selections label condition? c inner key name c' sub}
    (h : fragment label condition? c inner ∈ selections) (ha : ∀ t ∈ condition?, applies t)
    (ho : Occurs applies inner key name c' sub) : Occurs applies selections key name (c || c') sub

section Occurs

variable {applies : String → Prop} {selections more : List Expanded} {key name : String} {c : Bool}
  {sub : List Expanded}

theorem Occurs.mono (h : Occurs applies selections key name c sub)
    (hsub : ∀ e ∈ selections, e ∈ more) : Occurs applies more key name c sub := by
  cases h with
  | field h => exact .field (hsub _ h)
  | fragment h ha ho => exact .fragment (hsub _ h) ha ho

theorem Occurs.imp {applies' : String → Prop} (h : Occurs applies selections key name c sub)
    (himp : ∀ t, applies t → applies' t) : Occurs applies' selections key name c sub := by
  induction h with
  | field h => exact .field h
  | fragment h ha _ ih => exact .fragment h (fun t ht => himp t (ha t ht)) ih

@[simp] theorem not_occurs_nil : ¬ Occurs applies [] key name c sub := by
  intro h
  cases h <;> simp_all

theorem occurs_append : Occurs applies (selections ++ more) key name c sub ↔
    Occurs applies selections key name c sub ∨ Occurs applies more key name c sub := by
  constructor
  · intro h
    cases h with
    | field h => exact (List.mem_append.1 h).imp .field .field
    | fragment h ha ho => exact (List.mem_append.1 h).imp (.fragment · ha ho) (.fragment · ha ho)
  · rintro (h | h)
    · exact h.mono fun _ => List.mem_append_left _
    · exact h.mono fun _ => List.mem_append_right _

theorem occurs_cons {e : Expanded} : Occurs applies (e :: more) key name c sub ↔
    Occurs applies [e] key name c sub ∨ Occurs applies more key name c sub :=
  (occurs_append : Occurs applies ([e] ++ more) key name c sub ↔ _)

@[simp] theorem occurs_field {k n : String} {b : Bool} {s : List Expanded} :
    Occurs applies [field k n b s] key name c sub ↔ key = k ∧ name = n ∧ c = b ∧ sub = s := by
  constructor
  · intro h
    cases h with
    | field h => simpa using h
    | fragment h => simp at h
  · rintro ⟨rfl, rfl, rfl, rfl⟩
    exact .field (by simp)

@[simp] theorem occurs_fragment {label : FragmentLabel} {condition? : Option String} {b : Bool}
    {inner : List Expanded} : Occurs applies [fragment label condition? b inner] key name c sub ↔
      (∀ t ∈ condition?, applies t) ∧ ∃ c', c = (b || c') ∧ Occurs applies inner key name c' sub := by
  constructor
  · intro h
    cases h with
    | field h => simp at h
    | fragment h ha ho =>
      simp only [List.mem_singleton, fragment.injEq] at h
      obtain ⟨-, rfl, rfl, rfl⟩ := h
      exact ⟨ha, _, rfl, ho⟩
  · rintro ⟨ha, c', rfl, ho⟩
    exact .fragment (List.mem_singleton.2 rfl) ha ho

@[simp] theorem not_occurs_undefined {n : String} : ¬ Occurs applies [undefined n] key name c sub := by
  intro h
  cases h <;> simp_all

@[simp] theorem not_occurs_cyclic {n t : String} : ¬ Occurs applies [cyclic n t] key name c sub := by
  intro h
  cases h <;> simp_all

end Occurs

/-- `P` asks for one of the selections. -/
structure Additive (P : List Expanded → Prop) : Prop where
  nil : ¬ P []
  append : ∀ selections more, P (selections ++ more) ↔ P selections ∨ P more

theorem Additive.iff_exists_mem {P : List Expanded → Prop} (h : Additive P) (selections : List Expanded) :
    P selections ↔ ∃ e ∈ selections, P [e] := by
  induction selections with
  | nil => simp [h.nil]
  | cons e rest ih =>
    rw [show e :: rest = [e] ++ rest from rfl, h.append, ih]
    simp

theorem additive_occurs {applies : String → Prop} {key name : String} {c : Bool} {sub : List Expanded} :
    Additive (Occurs applies · key name c sub) :=
  ⟨not_occurs_nil, fun _ _ => occurs_append⟩

theorem additive_exists_occurs {applies : String → Prop} {key name : String} {sub : List Expanded} :
    Additive fun selections => ∃ c, Occurs applies selections key name c sub :=
  ⟨by simp, fun _ _ => by simp only [occurs_append, exists_or]⟩

theorem additive_exists_mem {P : Expanded → Prop} : Additive fun selections => ∃ e ∈ selections, P e :=
  ⟨by simp, fun _ _ => by simp only [List.mem_append, or_and_right, exists_or]⟩

theorem additive_ne_nil : Additive (· ≠ []) :=
  ⟨by simp, fun _ _ => by rw [Ne, List.append_eq_nil_iff, not_and_or]⟩

/-! ## Occurrences in the order of collection -/

/-- The fields among `selections` themselves. -/
def ownFields (scope : String) (conditional : Bool) (selections : List Expanded) : List CollectedField :=
  selections.filterMap (ownField? scope conditional)

/-- The fields in the fragments among `selections` that apply, the fields of a fragment itself
before those of the fragments in it. -/
def fragmentFields (applies : String → Bool) (scope : String) (conditional : Bool) :
    List Expanded → List CollectedField
  | [] => []
  | fragment _ condition? c sub :: rest =>
    (if condition?.all applies then
      ownFields (condition?.getD scope) (conditional || c) sub ++
        fragmentFields applies (condition?.getD scope) (conditional || c) sub
      else []) ++ fragmentFields applies scope conditional rest
  | field _ _ _ _ :: rest => fragmentFields applies scope conditional rest
  | undefined _ :: rest => fragmentFields applies scope conditional rest
  | cyclic _ _ :: rest => fragmentFields applies scope conditional rest

/-- The fields among `selections` and in their fragments, in the order of collection. -/
def fieldsIn (applies : String → Bool) (scope : String) (conditional : Bool)
    (selections : List Expanded) : List CollectedField :=
  ownFields scope conditional selections ++ fragmentFields applies scope conditional selections

theorem mem_ownFields {scope : String} {conditional : Bool} {selections : List Expanded}
    {f : CollectedField} : f ∈ ownFields scope conditional selections ↔
      ∃ c, field f.key f.name c f.selections ∈ selections ∧ f.scope = scope ∧
        f.conditional = (conditional || c) := by
  simp only [ownFields, List.mem_filterMap]
  constructor
  · rintro ⟨e, he, hf⟩
    cases e <;> simp only [ownField?, Option.some.injEq, reduceCtorEq] at hf
    subst hf
    exact ⟨_, he, rfl, rfl⟩
  · rintro ⟨c, he, hs, hc⟩
    exact ⟨_, he, by rw [ownField?, ← hs, ← hc]⟩

theorem mem_fragmentFields_fragment {applies : String → Bool} {scope : String} {conditional c : Bool}
    {label : FragmentLabel} {condition? : Option String} {sub rest : List Expanded} {f : CollectedField} :
    f ∈ fragmentFields applies scope conditional (fragment label condition? c sub :: rest) ↔
      (condition?.all applies = true ∧ f ∈ fieldsIn applies (condition?.getD scope) (conditional || c) sub) ∨
      f ∈ fragmentFields applies scope conditional rest := by
  rw [fragmentFields, List.mem_append]
  refine or_congr ?_ .rfl
  split
  next h => simp only [h, true_and]; rfl
  next h => simp [h]

theorem occurs_of_mem_ownFields {applies : String → Prop} {selections : List Expanded} {scope : String}
    {conditional : Bool} {f : CollectedField} (hf : f ∈ ownFields scope conditional selections) :
    ∃ c, Occurs applies selections f.key f.name c f.selections ∧ f.conditional = (conditional || c) := by
  obtain ⟨c, h, -, hc⟩ := mem_ownFields.1 hf
  exact ⟨c, .field h, hc⟩

theorem occurs_of_mem_fragmentFields {applies : String → Bool} {f : CollectedField} :
    ∀ {selections : List Expanded} {scope : String} {conditional : Bool},
      f ∈ fragmentFields applies scope conditional selections →
      ∃ c, Occurs (applies ·) selections f.key f.name c f.selections ∧ f.conditional = (conditional || c)
  | [], _, _, hf => by simp [fragmentFields] at hf
  | fragment label condition? c sub :: rest, scope, conditional, hf => by
    rcases mem_fragmentFields_fragment.1 hf with ⟨ha, hsub⟩ | hrest
    · obtain ⟨c', ho, hc'⟩ := (List.mem_append.1 hsub).elim occurs_of_mem_ownFields occurs_of_mem_fragmentFields
      refine ⟨c || c', occurs_cons.2 (.inl (occurs_fragment.2 ⟨?_, c', rfl, ho⟩)), by rw [hc', Bool.or_assoc]⟩
      cases condition? <;> simp_all
    · obtain ⟨c, ho, hc⟩ := occurs_of_mem_fragmentFields hrest
      exact ⟨c, occurs_cons.2 (.inr ho), hc⟩
  | field _ _ _ _ :: rest, scope, conditional, hf
  | undefined _ :: rest, scope, conditional, hf
  | cyclic _ _ :: rest, scope, conditional, hf => by
    rw [fragmentFields] at hf
    obtain ⟨c, ho, hc⟩ := occurs_of_mem_fragmentFields hf
    exact ⟨c, occurs_cons.2 (.inr ho), hc⟩

theorem occurs_of_mem_fieldsIn {applies : String → Bool} {selections : List Expanded} {scope : String}
    {conditional : Bool} {f : CollectedField} (hf : f ∈ fieldsIn applies scope conditional selections) :
    ∃ c, Occurs (applies ·) selections f.key f.name c f.selections ∧ f.conditional = (conditional || c) :=
  (List.mem_append.1 hf).elim occurs_of_mem_ownFields occurs_of_mem_fragmentFields

theorem mem_fragmentFields_of_mem {applies : String → Bool} {label : FragmentLabel}
    {condition? : Option String} {c : Bool} {sub : List Expanded} {f : CollectedField} {scope : String}
    {conditional : Bool} (ha : condition?.all applies = true)
    (hf : f ∈ fieldsIn applies (condition?.getD scope) (conditional || c) sub) :
    ∀ {selections : List Expanded}, fragment label condition? c sub ∈ selections →
      f ∈ fragmentFields applies scope conditional selections
  | e :: rest, h => by
    rcases List.mem_cons.1 h with rfl | h
    · exact mem_fragmentFields_fragment.2 (.inl ⟨ha, hf⟩)
    · have hrest := mem_fragmentFields_of_mem ha hf h
      cases e with
      | fragment => exact mem_fragmentFields_fragment.2 (.inr hrest)
      | field | undefined | cyclic => rwa [fragmentFields]

theorem mem_fieldsIn_of_occurs {applies : String → Bool} {selections : List Expanded} {key name : String}
    {c : Bool} {sub : List Expanded} (h : Occurs (applies ·) selections key name c sub) :
    ∀ (scope : String) (conditional : Bool),
      ∃ scope', ⟨key, name, scope', conditional || c, sub⟩ ∈ fieldsIn applies scope conditional selections := by
  induction h with
  | field h =>
    intro scope conditional
    exact ⟨scope, List.mem_append_left _ (mem_ownFields.2 ⟨_, h, rfl, rfl⟩)⟩
  | @fragment _ label condition? c inner key name c' sub h ha _ ih =>
    intro scope conditional
    obtain ⟨scope', hf⟩ := ih (condition?.getD scope) (conditional || c)
    refine ⟨scope', List.mem_append_right _ (mem_fragmentFields_of_mem ?_ ?_ h)⟩
    · cases condition? <;> simp_all
    · rwa [← Bool.or_assoc]

/-- Collecting inserts the fields one after the other, in the order of `fieldsIn`. -/
theorem collectFragments_eq_foldlM {s : Schema} {site : String} :
    ∀ {selections : List Expanded} {scope : String} {conditional : Bool}
      {fields collected : List CollectedField}, s.covers scope site = true →
      collectFragments s site scope conditional selections fields = .ok collected →
      (fragmentFields (s.covers · site) scope conditional selections).foldlM
        (fun fields f => f.insert site fields) fields = .ok collected
  | [], _, _, _, _, _, h => by simpa [collectFragments, fragmentFields, pure, Except.pure] using h
  | field _ _ _ _ :: rest, _, _, _, _, hs, h => by
    rw [collectFragments] at h
    rw [fragmentFields]
    exact collectFragments_eq_foldlM hs h
  | undefined _ :: _, _, _, _, _, _, h => by simp [collectFragments] at h
  | cyclic _ _ :: rest, _, _, _, _, hs, h => by
    simp only [collectFragments, bind_eq_ok] at h
    obtain ⟨_, -, h⟩ := h
    split at h
    · cases h
    · rw [fragmentFields]
      exact collectFragments_eq_foldlM hs h
  | fragment label condition? c sub :: rest, scope, conditional, fields, collected, hs, h => by
    simp only [collectFragments, bind_eq_ok] at h
    obtain ⟨_, -, h⟩ := h
    have hcond : condition?.all (s.covers · site) = s.covers (condition?.getD scope) site := by
      cases condition? <;> simp [hs]
    rw [fragmentFields, hcond]
    split at h
    next hcov =>
      obtain ⟨fields₂, hsub, h⟩ := bind_eq_ok.1 h
      simp only [collectInto, bind_eq_ok] at hsub
      obtain ⟨fields₁, hown, hin⟩ := hsub
      rw [if_pos hcov, List.foldlM_append, List.foldlM_append, bind_eq_ok]
      exact ⟨fields₂, bind_eq_ok.2 ⟨fields₁, hown, collectFragments_eq_foldlM hcov hin⟩,
        collectFragments_eq_foldlM hs h⟩
    next hcov =>
      rw [if_neg hcov]
      exact collectFragments_eq_foldlM hs h

theorem collect_eq_foldlM {s : Schema} {site : String} {selections : List Expanded}
    {collected : List CollectedField} (h : collect s site selections = .ok collected) :
    (fieldsIn (s.covers · site) site false selections).foldlM (fun fields f => f.insert site fields) [] =
      .ok collected := by
  simp only [collect, collectInto, bind_eq_ok] at h
  obtain ⟨own, hown, h⟩ := h
  rw [fieldsIn, List.foldlM_append, bind_eq_ok]
  exact ⟨own, hown, collectFragments_eq_foldlM (by simp [Schema.covers]) h⟩

theorem scope_of_mem_fragmentFields {applies : String → Bool} {f : CollectedField} :
    ∀ {selections : List Expanded} {scope : String} {conditional : Bool}, applies scope = true →
      f ∈ fragmentFields applies scope conditional selections → applies f.scope = true
  | [], _, _, _, hf => by simp [fragmentFields] at hf
  | fragment label condition? c sub :: rest, scope, conditional, hs, hf => by
    rcases mem_fragmentFields_fragment.1 hf with ⟨ha, hsub⟩ | hrest
    · have hin : applies (condition?.getD scope) = true := by cases condition? <;> simp_all
      rcases List.mem_append.1 hsub with hown | hsub
      · obtain ⟨_, -, hscope, -⟩ := mem_ownFields.1 hown
        rwa [hscope]
      · exact scope_of_mem_fragmentFields hin hsub
    · exact scope_of_mem_fragmentFields hs hrest
  | field _ _ _ _ :: rest, scope, conditional, hs, hf
  | undefined _ :: rest, scope, conditional, hs, hf
  | cyclic _ _ :: rest, scope, conditional, hs, hf => by
    rw [fragmentFields] at hf
    exact scope_of_mem_fragmentFields hs hf

/-- The scope of a field is the one its selections were written in, or the condition of a fragment
that applies. -/
theorem scope_of_mem_fieldsIn {applies : String → Bool} {f : CollectedField} {selections : List Expanded}
    {scope : String} {conditional : Bool} (hs : applies scope = true)
    (hf : f ∈ fieldsIn applies scope conditional selections) : applies f.scope = true := by
  rcases List.mem_append.1 hf with hown | hf
  · obtain ⟨_, -, hscope, -⟩ := mem_ownFields.1 hown
    rwa [hscope]
  · exact scope_of_mem_fragmentFields hs hf

end Expanded

namespace CollectedField

/-! ## Merging -/

@[simp] theorem merge_key (f new : CollectedField) : (f.merge new).key = f.key := rfl
@[simp] theorem merge_name (f new : CollectedField) : (f.merge new).name = f.name := rfl
@[simp] theorem merge_scope (f new : CollectedField) : (f.merge new).scope = f.scope := rfl
@[simp] theorem merge_conditional (f new : CollectedField) :
    (f.merge new).conditional = (f.conditional && new.conditional) := rfl
@[simp] theorem merge_selections (f new : CollectedField) :
    (f.merge new).selections = f.mergeSelections new := rfl

/-- Inserting a field merges it into the one of its key and name, or adds it at the end. -/
theorem insert_ok {site : String} {new : CollectedField} :
    ∀ {fields fields' : List CollectedField}, new.insert site fields = .ok fields' →
      (new.key ∉ fields.map (·.key) ∧ fields' = fields ++ [new]) ∨
      ∃ pre f post, fields = pre ++ f :: post ∧ f.key = new.key ∧ f.name = new.name ∧
        fields' = pre ++ f.merge new :: post
  | [], _, h => by
    cases h
    exact .inl ⟨by simp, rfl⟩
  | f :: rest, fields', h => by
    rw [insert] at h
    split at h
    next hkey =>
      split at h
      next hname =>
        cases h
        exact .inr ⟨[], f, rest, rfl, hkey, hname, rfl⟩
      next => cases h
    next hkey =>
      obtain ⟨rest', hrest, h⟩ := bind_eq_ok.1 h
      cases h
      rcases insert_ok hrest with ⟨hnew, rfl⟩ | ⟨pre, g, post, rfl, hgk, hgn, rfl⟩
      · refine .inl ⟨?_, rfl⟩
        simp only [List.map_cons, List.mem_cons, not_or]
        exact ⟨Ne.symm hkey, hnew⟩
      · exact .inr ⟨f :: pre, g, post, rfl, hgk, hgn, rfl⟩

/-- What collection makes of `occurrences`: one field for each key, the merge of the occurrences
of that key in their order. Occurrences of one key select one schema field. -/
structure Merged (occurrences fields : List CollectedField) : Prop where
  distinct : (fields.map (·.key)).Nodup
  collected : ∀ o ∈ occurrences, ∃ f ∈ fields, f.key = o.key ∧ f.name = o.name
  merged : ∀ f ∈ fields, ∃ o rest, occurrences.filter (·.key = f.key) = o :: rest ∧ f = rest.foldl merge o

theorem foldl_merge_scope (rest : List CollectedField) (o : CollectedField) :
    (rest.foldl merge o).scope = o.scope := by
  induction rest generalizing o with
  | nil => rfl
  | cons a rest ih => rw [List.foldl_cons, ih, merge_scope]

theorem Merged.nil : Merged [] [] := ⟨by simp, by simp, by simp⟩

/-- An occurrence of another key changes nothing for a field. -/
theorem Merged.group_of_ne {occurrences fields : List CollectedField} {f new : CollectedField}
    (h : Merged occurrences fields) (hf : f ∈ fields) (hne : new.key ≠ f.key) :
    ∃ o rest, (occurrences ++ [new]).filter (·.key = f.key) = o :: rest ∧ f = rest.foldl merge o := by
  obtain ⟨o, rest, hfilter, he⟩ := h.merged f hf
  exact ⟨o, rest, by simp [List.filter_append, hfilter, hne], he⟩

/-- The first occurrence of its key. -/
theorem Merged.add {occurrences fields : List CollectedField} {new : CollectedField}
    (h : Merged occurrences fields) (hnew : new.key ∉ fields.map (·.key)) :
    Merged (occurrences ++ [new]) (fields ++ [new]) := by
  refine ⟨?_, ?_, ?_⟩
  · rw [List.map_append]
    exact h.distinct.append (List.nodup_singleton _) (by simpa using hnew)
  · intro o ho
    rcases List.mem_append.1 ho with ho | ho
    · obtain ⟨f, hf, he⟩ := h.collected o ho
      exact ⟨f, List.mem_append_left _ hf, he⟩
    · obtain rfl := List.mem_singleton.1 ho
      exact ⟨o, by simp, rfl, rfl⟩
  · intro f hf
    rcases List.mem_append.1 hf with hf | hf
    · exact h.group_of_ne hf fun hk => hnew (hk ▸ List.mem_map_of_mem hf)
    · obtain rfl := List.mem_singleton.1 hf
      have hnone : occurrences.filter (·.key = f.key) = [] := by
        rw [List.filter_eq_nil_iff]
        intro o ho hk
        obtain ⟨g, hg, hgk, -⟩ := h.collected o ho
        exact hnew (List.mem_map.2 ⟨g, hg, hgk.trans (by simpa using hk)⟩)
      exact ⟨f, [], by simp [List.filter_append, hnone], rfl⟩

/-- One more occurrence of the key of `f`. -/
theorem Merged.mergeInto {occurrences pre post : List CollectedField} {f new : CollectedField}
    (h : Merged occurrences (pre ++ f :: post)) (hkey : f.key = new.key) (hname : f.name = new.name) :
    Merged (occurrences ++ [new]) (pre ++ f.merge new :: post) := by
  refine ⟨?_, ?_, ?_⟩
  · simpa using h.distinct
  · intro o ho
    rcases List.mem_append.1 ho with ho | ho
    · obtain ⟨g, hg, he⟩ := h.collected o ho
      rcases List.mem_append.1 hg with hg | hg
      · exact ⟨g, by simp [hg], he⟩
      rcases List.mem_cons.1 hg with rfl | hg
      · exact ⟨g.merge new, by simp, he⟩
      · exact ⟨g, by simp [hg], he⟩
    · obtain rfl := List.mem_singleton.1 ho
      exact ⟨f.merge o, by simp, hkey, hname⟩
  · have hother : ∀ g ∈ pre ++ post, new.key ≠ g.key := by
      have hd := h.distinct
      rw [List.map_append, List.map_cons, List.nodup_middle, List.nodup_cons, ← List.map_append] at hd
      exact fun g hg hk => hd.1 (hkey.trans hk ▸ List.mem_map_of_mem hg)
    intro g hg
    rcases List.mem_append.1 hg with hg | hg
    · exact h.group_of_ne (by simp [hg]) (hother g (by simp [hg]))
    rcases List.mem_cons.1 hg with rfl | hg
    · obtain ⟨o, rest, hfilter, he⟩ := h.merged f (by simp)
      have hgroup : (occurrences ++ [new]).filter (·.key = f.key) = o :: (rest ++ [new]) := by
        rw [List.filter_append, hfilter]
        simp [hkey]
      exact ⟨o, rest ++ [new], hgroup, by rw [List.foldl_append, ← he]; rfl⟩
    · exact h.group_of_ne (by simp [hg]) (hother g (by simp [hg]))

theorem Merged.insert {site : String} {occurrences fields fields' : List CollectedField} {new : CollectedField}
    (h : Merged occurrences fields) (hi : new.insert site fields = .ok fields') :
    Merged (occurrences ++ [new]) fields' := by
  rcases insert_ok hi with ⟨hnew, rfl⟩ | ⟨pre, f, post, rfl, hkey, hname, rfl⟩
  · exact h.add hnew
  · exact h.mergeInto hkey hname

theorem merged_of_foldlM {site : String} {occurrences fields : List CollectedField}
    (h : occurrences.foldlM (fun fields f => f.insert site fields) [] = .ok fields) :
    Merged occurrences fields := by
  induction occurrences using List.reverseRecOn generalizing fields with
  | nil =>
    cases h
    exact .nil
  | append_singleton occurrences new ih =>
    rw [List.foldlM_append, bind_eq_ok] at h
    obtain ⟨fields₁, h₁, h⟩ := h
    exact (ih h₁).insert (by simpa using h)

theorem foldl_merge_conditional (rest : List CollectedField) (o : CollectedField) :
    (rest.foldl merge o).conditional = (o :: rest).all (·.conditional) := by
  induction rest generalizing o with
  | nil => simp
  | cons a rest ih => rw [List.foldl_cons, ih]; simp [Bool.and_assoc]

/-- A collected field is conditional if and only if every occurrence of its key is. -/
theorem Merged.conditional_iff {occurrences fields : List CollectedField} (h : Merged occurrences fields)
    {f : CollectedField} (hf : f ∈ fields) :
    f.conditional = true ↔ ∀ o ∈ occurrences, o.key = f.key → o.conditional = true := by
  obtain ⟨o, rest, hfilter, he⟩ := h.merged f hf
  have hall : f.conditional = (occurrences.filter (·.key = f.key)).all (·.conditional) := by
    rw [hfilter, ← foldl_merge_conditional, ← he]
  rw [hall]
  simp only [List.all_eq_true, List.mem_filter, decide_eq_true_eq, and_imp]

theorem Merged.name_eq {occurrences fields : List CollectedField} (h : Merged occurrences fields)
    {f o : CollectedField} (hf : f ∈ fields) (ho : o ∈ occurrences) (hk : o.key = f.key) : o.name = f.name := by
  obtain ⟨g, hg, hgk, hgn⟩ := h.collected o ho
  obtain rfl := List.inj_on_of_nodup_map h.distinct hg hf (hgk.trans hk)
  exact hgn.symm

/-- The first occurrence of the key of a collected field. -/
theorem Merged.first {occurrences fields : List CollectedField} (h : Merged occurrences fields)
    {f : CollectedField} (hf : f ∈ fields) :
    ∃ o ∈ occurrences, o.key = f.key ∧ o.name = f.name ∧ o.scope = f.scope := by
  obtain ⟨o, rest, hfilter, he⟩ := h.merged f hf
  have ho : o ∈ occurrences.filter (·.key = f.key) := by simp [hfilter]
  simp only [List.mem_filter, decide_eq_true_eq] at ho
  exact ⟨o, ho.1, ho.2, h.name_eq hf ho.1 ho.2, by rw [he, foldl_merge_scope]⟩

/-! ## What is selected below a merged field -/

theorem occurs_markConditional {applies : String → Prop} {selections : List Expanded} {key name : String}
    {c : Bool} {sub : List Expanded} :
    Expanded.Occurs applies (Expanded.markConditional selections) key name c sub ↔
      c = true ∧ ∃ c', Expanded.Occurs applies selections key name c' sub := by
  unfold Expanded.markConditional
  split
  next inner =>
    simp only [Expanded.occurs_fragment, Bool.true_or]
    constructor
    · rintro ⟨ha, c', rfl, ho⟩
      exact ⟨rfl, true, ha, c', rfl, ho⟩
    · rintro ⟨rfl, _, ha, c', -, ho⟩
      exact ⟨ha, c', rfl, ho⟩
  next =>
    simp only [Expanded.occurs_fragment, Bool.true_or]
    constructor
    · rintro ⟨-, c', rfl, ho⟩
      exact ⟨rfl, c', ho⟩
    · rintro ⟨rfl, c', ho⟩
      exact ⟨by simp, c', rfl, ho⟩

theorem occurs_marked {applies : String → Prop} {selections : List Expanded} {key name : String}
    {b c : Bool} {sub : List Expanded} :
    Expanded.Occurs applies (marked b selections) key name c sub ↔
      ∃ c', c = (b || c') ∧ Expanded.Occurs applies selections key name c' sub := by
  cases b with
  | false => simp [marked]
  | true => simp [marked, occurs_markConditional]

theorem exists_occurs_marked {applies : String → Prop} {selections : List Expanded} {key name : String}
    {b : Bool} {sub : List Expanded} :
    (∃ c, Expanded.Occurs applies (marked b selections) key name c sub) ↔
      ∃ c, Expanded.Occurs applies selections key name c sub := by
  simp only [occurs_marked]
  constructor
  · rintro ⟨_, c', -, ho⟩
    exact ⟨c', ho⟩
  · rintro ⟨c', ho⟩
    exact ⟨_, c', rfl, ho⟩

theorem marked_ne_nil_iff {b : Bool} {selections : List Expanded} (h : selections ≠ []) :
    marked b selections ≠ [] ↔ selections ≠ [] := by
  refine iff_of_true ?_ h
  unfold marked Expanded.markConditional
  split
  · split <;> simp
  · exact h

section merging

variable {P : List Expanded → Prop} (hP : Expanded.Additive P)
  (hmarked : ∀ {b selections}, selections ≠ [] → (P (marked b selections) ↔ P selections))
include hP hmarked

/-- What is asked for below either occurrence is below both merged, whether the server may leave it out or not. -/
theorem mergeSelections_iff {f new : CollectedField} :
    P (f.mergeSelections new) ↔ P f.selections ∨ P new.selections := by
  unfold mergeSelections
  split
  next hnew => simp [List.isEmpty_iff.1 hnew, hP.nil]
  next hnew =>
    have hnew' := hmarked (b := new.conditional) (by simpa using hnew)
    split
    next hf => rw [hnew', List.isEmpty_iff.1 hf, or_iff_right hP.nil]
    next hf => rw [hP.append, hnew', hmarked (by simpa using hf)]

theorem foldl_merge_iff (o : CollectedField) (rest : List CollectedField) :
    P (rest.foldl merge o).selections ↔ ∃ g ∈ o :: rest, P g.selections := by
  induction rest generalizing o with
  | nil => simp
  | cons a rest ih =>
    rw [List.foldl_cons, ih]
    simp only [List.mem_cons, exists_eq_or_imp, merge_selections, mergeSelections_iff hP hmarked, or_assoc]

/-- What is asked for below a collected field is asked for below an occurrence of its key. -/
theorem Merged.selections_iff {occurrences fields : List CollectedField} (h : Merged occurrences fields)
    {f : CollectedField} (hf : f ∈ fields) : P f.selections ↔ ∃ g ∈ occurrences, g.key = f.key ∧ P g.selections := by
  obtain ⟨o, rest, hfilter, he⟩ := h.merged f hf
  rw [he, foldl_merge_iff hP hmarked, ← he, ← hfilter]
  simp only [List.mem_filter, decide_eq_true_eq, and_assoc]

end merging

/-- What holds of all selections below each occurrence of a key holds of all below the collected field. -/
theorem Merged.forall_selections_iff {P : Expanded → Prop} {occurrences fields : List CollectedField}
    (hmarked : ∀ {b selections}, selections ≠ [] → ((∀ e ∈ marked b selections, P e) ↔ ∀ e ∈ selections, P e))
    (h : Merged occurrences fields) {f : CollectedField} (hf : f ∈ fields) :
    (∀ e ∈ f.selections, P e) ↔ ∀ g ∈ occurrences, g.key = f.key → ∀ e ∈ g.selections, P e := by
  have hany := h.selections_iff (P := fun selections => ∃ e ∈ selections, ¬ P e) Expanded.additive_exists_mem
    (fun hne => by simpa using not_congr (hmarked hne)) hf
  simpa using not_congr hany

/-- Below two occurrences that both select something, a field is unconditional only if it is so
below one of them that is itself unconditional. -/
theorem unconditional_of_mergeSelections {applies : String → Prop} {f new : CollectedField}
    {key name : String} {sub : List Expanded} (hf : f.selections ≠ []) (hnew : new.selections ≠ [])
    (h : Expanded.Occurs applies (f.mergeSelections new) key name false sub) :
    (f.conditional = false ∧ Expanded.Occurs applies f.selections key name false sub) ∨
      (new.conditional = false ∧ Expanded.Occurs applies new.selections key name false sub) := by
  rw [mergeSelections, if_neg (by simpa using hnew), if_neg (by simpa using hf), Expanded.occurs_append] at h
  simp only [occurs_marked] at h
  rcases h with ⟨c, hc, ho⟩ | ⟨c, hc, ho⟩
  · simp only [Bool.false_eq, Bool.or_eq_false_iff] at hc
    obtain ⟨hcond, rfl⟩ := hc
    exact .inl ⟨hcond, ho⟩
  · simp only [Bool.false_eq, Bool.or_eq_false_iff] at hc
    obtain ⟨hcond, rfl⟩ := hc
    exact .inr ⟨hcond, ho⟩

theorem unconditional_of_foldl_merge {applies : String → Prop} {key name : String} {sub : List Expanded}
    {o : CollectedField} {rest : List CollectedField} (hsub : ∀ g ∈ o :: rest, g.selections ≠ [])
    (h : Expanded.Occurs applies (rest.foldl merge o).selections key name false sub) :
    ∃ g ∈ o :: rest, Expanded.Occurs applies g.selections key name false sub ∧
      (g.conditional = false ∨ rest = []) := by
  induction rest using List.reverseRecOn with
  | nil => exact ⟨o, by simp, h, .inr rfl⟩
  | append_singleton rest new ih =>
    rw [List.foldl_append] at h
    have ho : (rest.foldl merge o).selections ≠ [] :=
      (foldl_merge_iff Expanded.additive_ne_nil marked_ne_nil_iff o rest).2 ⟨o, List.mem_cons_self, hsub o (by simp)⟩
    rcases unconditional_of_mergeSelections ho (hsub new (by simp)) h with ⟨hc, hf⟩ | ⟨hc, hf⟩
    · have hmem : ∀ g ∈ o :: rest, g ∈ o :: (rest ++ [new]) :=
        fun g hg => List.cons_append ▸ List.mem_append_left [new] hg
      obtain ⟨g, hg, hog, hcg⟩ := ih (fun g hg => hsub g (hmem g hg)) hf
      refine ⟨g, hmem g hg, hog, .inl ?_⟩
      rcases hcg with hcg | rfl
      · exact hcg
      · obtain rfl := List.mem_singleton.1 hg
        exact hc
    · exact ⟨new, by simp, hf, .inl hc⟩

theorem Merged.occurs_iff {applies : String → Prop} {occurrences fields : List CollectedField}
    (h : Merged occurrences fields) {f : CollectedField} (hf : f ∈ fields) {key name : String}
    {sub : List Expanded} :
    (∃ c, Expanded.Occurs applies f.selections key name c sub) ↔
      ∃ g ∈ occurrences, g.key = f.key ∧ ∃ c, Expanded.Occurs applies g.selections key name c sub :=
  h.selections_iff Expanded.additive_exists_occurs (fun _ => exists_occurs_marked) hf

/-- Where every occurrence of a key selects something, an unconditional field below the merged
field is unconditional below an occurrence that is unconditional itself, or the only one. -/
theorem Merged.unconditional {applies : String → Prop} {occurrences fields : List CollectedField}
    (h : Merged occurrences fields) {f : CollectedField} (hf : f ∈ fields)
    (hsub : ∀ g ∈ occurrences, g.key = f.key → g.selections ≠ []) {key name : String} {sub : List Expanded}
    (ho : Expanded.Occurs applies f.selections key name false sub) :
    ∃ g ∈ occurrences, g.key = f.key ∧ Expanded.Occurs applies g.selections key name false sub ∧
      (g.conditional = false ∨ ∀ g' ∈ occurrences, g'.key = f.key → g' = g) := by
  obtain ⟨o, rest, hfilter, he⟩ := h.merged f hf
  have hmem : ∀ g, g ∈ o :: rest ↔ g ∈ occurrences ∧ g.key = f.key := fun g => by
    rw [← hfilter, List.mem_filter, decide_eq_true_eq]
  rw [he] at ho
  obtain ⟨g, hg, hog, hc⟩ :=
    unconditional_of_foldl_merge (fun g hg => hsub g ((hmem g).1 hg).1 ((hmem g).1 hg).2) ho
  refine ⟨g, ((hmem g).1 hg).1, ((hmem g).1 hg).2, hog, hc.imp_right ?_⟩
  rintro rfl g' hg' hk
  rw [List.mem_singleton.1 hg, List.mem_singleton.1 ((hmem g').2 ⟨hg', hk⟩)]

end CollectedField

/-- What is collected is the merge of what occurs. -/
theorem Expanded.merged_of_collect {s : Schema} {site : String} {selections : List Expanded}
    {fields : List CollectedField} (h : collect s site selections = .ok fields) :
    CollectedField.Merged (fieldsIn (s.covers · site) site false selections) fields :=
  CollectedField.merged_of_foldlM (collect_eq_foldlM h)

end TypedQuery
