/-
Names of variants. The values of an enum, and the run-time types of an
interface or a union, become variants: each name is converted for itself, and
one more variant stands for all other values. So the variants have names of
their own if and only if the conversion keeps the names apart and they leave a
name for the last variant, which has two to choose from
(`variantNames_nodup_iff`). Names in capital letters are kept apart, since
their words can be read off what they become (`typeName_injOn_capitals`);
there the only clash is between `UNKNOWN` and `UNKNOWN_VALUE`
(`capital_variantNames_nodup_iff`).
-/
import TypedQuery.Proofs.Identifiers
import TypedQuery.Proofs.ItemNames

namespace TypedQuery

namespace Shape

/-- The shape becomes an enumeration: it is that of an enum, or has variants. -/
def isCased (t : Shape) : Bool :=
  match t.kind with
  | .enumeration _ => true
  | _ => !t.variants.isEmpty

/-- What the variants stand for: the values of an enum, or else run-time types. -/
def caseNames (t : Shape) : List String :=
  match t.kind with
  | .enumeration values => values.map (·.name)
  | _ => t.variants.map (·.typename)

/-- The names in a shape from which those of an enumeration are made are plain. -/
structure PlainCases (t : Shape) : Prop where
  name : IsPlain t.name
  cases : ∀ n ∈ t.caseNames, IsPlain n
  contents : ∀ v ∈ t.variants, IsPlain v.shapeName

end Shape

namespace Emission

/-- The names of all variants of an enumeration, the last one for all other values. -/
def Item.variantNames : Item → List String
  | .enumeration _ _ _ variants fallback => variants.map (·.identifier) ++ [fallback]
  | .struct _ _ _ _ | .constant _ _ _ => []

theorem mapM_eq_ok {ε α β : Type} {f : α → Except ε β} {g : α → β} {l : List α} (h : ∀ a ∈ l, f a = .ok (g a)) :
    l.mapM f = .ok (l.map g) := by
  induction l with
  | nil => rfl
  | cons a l ih =>
    obtain ⟨ha, hl⟩ := List.forall_mem_cons.1 h
    rw [List.mapM_cons, ha, ih hl]
    rfl

section variants

variable {kinds : Kinds} {t : Shape} {values : List EnumValue}

theorem isName_fallbackName (names : List String) : isName (fallbackName names) = true := by
  unfold fallbackName
  split <;> decide

/-- The enumeration for an enum with plain names. -/
theorem enumItem_eq (hname : IsPlain t.name) (hvalues : ∀ v ∈ values, IsPlain v.name) : enumItem t values =
    .ok (.enumeration false (docLines t.description?) (escapeWord (typeName t.name))
      (values.map fun v => ⟨docLines v.description?, v.name, escapeWord (typeName v.name), none⟩)
      (escapeWord (fallbackName (values.map fun v => typeName v.name)))) := by
  have hvariants := mapM_eq_ok (l := values)
    (f := fun v => do
      let i ← identifier (typeName v.name)
      .ok (⟨docLines v.description?, v.name, i, none⟩ : EnumVariant))
    (g := fun v => ⟨docLines v.description?, v.name, escapeWord (typeName v.name), none⟩)
    fun v hv => by rw [identifier_typeName (hvalues v hv)]; rfl
  unfold enumItem
  dsimp only
  rw [identifier_typeName hname, identifier_of_isName (isName_fallbackName _), hvariants]
  rfl

/-- The enumeration for an interface or a union with plain names. -/
theorem taggedItem_eq (hname : IsPlain t.name)
    (hvariants : ∀ v ∈ t.variants, IsPlain v.typename ∧ IsPlain v.shapeName) : taggedItem t =
    .ok (.enumeration true (docLines t.description?) (escapeWord (typeName t.name))
      (t.variants.map fun v => ⟨[], v.typename, escapeWord (typeName v.typename),
        some (escapeWord (typeName v.shapeName))⟩)
      (escapeWord (fallbackName (t.variants.map fun v => typeName v.typename)))) := by
  have hmapped := mapM_eq_ok (l := t.variants)
    (f := fun v => do
      let i ← identifier (typeName v.typename)
      let content ← identifier (typeName v.shapeName)
      .ok (⟨[], v.typename, i, some content⟩ : EnumVariant))
    (g := fun v => ⟨[], v.typename, escapeWord (typeName v.typename), some (escapeWord (typeName v.shapeName))⟩)
    fun v hv => by
      rw [identifier_typeName (hvariants v hv).1, identifier_typeName (hvariants v hv).2]
      rfl
  unfold taggedItem
  dsimp only
  rw [identifier_typeName hname, identifier_of_isName (isName_fallbackName _), hmapped]
  rfl

/-- The names of variants before they are escaped. -/
def plainVariantNames (cases : List String) : List String :=
  cases.map typeName ++ [fallbackName (cases.map typeName)]

/-- A shape with cases is emitted, and its variants are named after these. -/
theorem shapeItem_variantNames (hcased : t.isCased = true) (hplain : t.PlainCases) :
    ∃ item, shapeItem kinds t = .ok item ∧ item.variantNames = (plainVariantNames t.caseNames).map escapeWord := by
  have hcases := hplain.cases
  unfold Shape.isCased at hcased
  unfold Shape.caseNames at hcases ⊢
  split at hcases
  next values hkind =>
    have hvalues : ∀ v ∈ values, IsPlain v.name := fun v hv => hcases _ (List.mem_map_of_mem hv)
    have hitem : shapeItem kinds t = enumItem t values := by rw [shapeItem, hkind]
    rw [hitem, enumItem_eq hplain.name hvalues]
    exact ⟨_, rfl, by simp [Item.variantNames, plainVariantNames, Function.comp_def]⟩
  next hkind =>
    have hvariants : ∀ v ∈ t.variants, IsPlain v.typename ∧ IsPlain v.shapeName := fun v hv =>
      ⟨hcases _ (List.mem_map_of_mem hv), hplain.contents v hv⟩
    have hitem : shapeItem kinds t = taggedItem t := by
      unfold shapeItem
      split
      next values henum => exact absurd henum (hkind values)
      next hinput => simp [hinput, Shape.variants] at hcased
      next => exact if_neg (by simpa [hkind] using hcased)
    rw [hitem, taggedItem_eq hplain.name hvariants]
    exact ⟨_, rfl, by simp [Item.variantNames, plainVariantNames, Function.comp_def]⟩

theorem isAlphanum_of_mem_plainVariantNames {cases : List String} (h : ∀ n ∈ cases, IsPlain n) :
    ∀ n ∈ plainVariantNames cases, ∀ c ∈ n.toList, c.isAlphanum = true := by
  refine List.forall_mem_append.2 ⟨List.forall_mem_map.2 fun n hn => isAlphanum_of_mem_typeName (h n hn), ?_⟩
  rw [List.forall_mem_singleton]
  unfold fallbackName
  split <;> simp

/-- The last variant has a name of its own unless both of its names are taken. -/
theorem fallbackName_mem {names : List String} :
    fallbackName names ∈ names ↔ "Unknown" ∈ names ∧ "UnknownValue" ∈ names := by
  unfold fallbackName
  split
  next h => simp [h]
  next h => simp [h]

theorem plainVariantNames_nodup {cases : List String} : (plainVariantNames cases).Nodup ↔
    (cases.map typeName).Nodup ∧ ¬ ("Unknown" ∈ cases.map typeName ∧ "UnknownValue" ∈ cases.map typeName) := by
  rw [plainVariantNames, List.nodup_append_comm, List.singleton_append, List.nodup_cons, fallbackName_mem, and_comm]

/-- Escaping leaves the names of variants apart, or together. -/
theorem map_escapeWord_nodup {cases : List String} (h : ∀ n ∈ cases, IsPlain n) :
    ((plainVariantNames cases).map escapeWord).Nodup ↔ (plainVariantNames cases).Nodup := by
  have halpha := isAlphanum_of_mem_plainVariantNames h
  exact ⟨.of_map _, fun hnodup => hnodup.map_on fun a ha b hb => escapeWord_injective (halpha a ha) (halpha b hb)⟩

/-- **Variants have names of their own** if and only if the conversion keeps the names apart that they stand for, and
makes of these at most one of the two names that the last variant can have. There is one variant for each of them,
and one more. -/
theorem variantNames_nodup_iff (hcased : t.isCased = true) (hplain : t.PlainCases) :
    ∃ item, shapeItem kinds t = .ok item ∧ item.variantNames.length = t.caseNames.length + 1 ∧
      (item.variantNames.Nodup ↔ (t.caseNames.map typeName).Nodup ∧
        ¬ ("Unknown" ∈ t.caseNames.map typeName ∧ "UnknownValue" ∈ t.caseNames.map typeName)) := by
  obtain ⟨item, hitem, hnames⟩ : ∃ item, shapeItem kinds t = .ok item ∧ _ := shapeItem_variantNames hcased hplain
  refine ⟨item, hitem, by simp [hnames, plainVariantNames], ?_⟩
  rw [hnames, map_escapeWord_nodup hplain.cases, plainVariantNames_nodup]

end variants

/-! An issue can be in a state that is called like the last variant. -/

def issueState : Shape where
  name := "IssueState"
  schemaType := "IssueState"
  kind := .enumeration [⟨"OPEN", none⟩, ⟨"IN_PROGRESS", none⟩, ⟨"UNKNOWN", none⟩]
  description? := none
  properties := []

theorem issueState_apart : issueState.isCased = true ∧ issueState.PlainCases ∧
    ∃ item, shapeItem [issueState] issueState = .ok item ∧ item.variantNames.length = 4 ∧ item.variantNames.Nodup := by
  have hnames : ∀ n ∈ issueState.caseNames, isName n = true := by decide
  have hplain : issueState.PlainCases :=
    ⟨isPlain_of_isName (by decide), fun n hn => isPlain_of_isName (hnames n hn), by simp [issueState, Shape.variants]⟩
  obtain ⟨item, hitem, hlength, hnodup⟩ := variantNames_nodup_iff rfl hplain
  exact ⟨rfl, hplain, item, hitem, hlength, hnodup.2 (by decide +kernel)⟩

/-! A state that is not known, and one whose value is not. -/

def doubtful : Schema where
  types := [
    .enumeration ⟨"State", none, [⟨"UNKNOWN", none⟩, ⟨"UNKNOWN_VALUE", none⟩]⟩,
    .object ⟨"Query", none, [], [⟨"state", .named "State", none⟩]⟩]
  roots := {}
  scalars := .default

def doubtfulDocument : Document where
  operations := [⟨none, .query, [], [.field none "state" false []], "\x7b state \x7d"⟩]
  fragments := []

/-- The last variant gives way to `Unknown` and takes the name of the other value. -/
theorem unknownValue_clash : ∃ g, doubtful.generate doubtfulDocument = .ok g ∧ ∃ t ∈ g.shapes,
    (∃ values, t.kind = .enumeration values) ∧ t.caseNames.Nodup ∧ (∀ n ∈ t.caseNames, isName n = true) ∧
      ∃ item, shapeItem g.shapes t = .ok item ∧ ¬ item.variantNames.Nodup := by
  refine ⟨_, by cbv, _, List.mem_cons_self, ⟨_, rfl⟩, by decide, by decide, _, by cbv, ?_⟩
  decide

/-! ## Names in capital letters -/

/-- A capital letter or a digit. -/
def isCapital (c : Char) : Bool := c.isUpper || c.isDigit

/-- A capital letter, and then capital letters and digits. -/
def isCapitalWord (w : List Char) : Bool := w.head?.any Char.isUpper && w.all isCapital

/-- Words in capital letters, which each begin with a letter, with single underscores between them. -/
def isCapitals (n : String) : Bool :=
  (n.toList.splitOn '_').all isCapitalWord

section capitals

variable {text reversed w v : List Char} {mode : Text.CaseMode} {c : Char}

theorem isAlphanum_of_isCapital (h : isCapital c = true) : c.isAlphanum = true := by
  simp only [isCapital, Bool.or_eq_true] at h
  rcases h with h | h <;> simp [Char.isAlphanum, Char.isAlpha, h]

theorem isLower_of_isCapital (h : isCapital c = true) : c.isLower = false := by
  simp only [isCapital, Bool.or_eq_true] at h
  rcases h with h | h
  · exact Bool.eq_false_iff.2 (Char.not_isLower_of_isUpper h)
  · exact (Text.not_isAlpha_of_isDigit h).2

theorem isLowercase_of_isCapital (h : isCapital c = true ∨ c = '_') : Text.isLowercase c = false := by
  rcases h with h | rfl
  · exact (Text.classOf_ascii (Text.ascii_of_isAlphanum (isAlphanum_of_isCapital h))).trans (isLower_of_isCapital h)
  · decide

/-- Without small letters a text is cut at its underscores only. -/
theorem cutWords_capitals (hmode : mode ≠ .lower) (htext : ∀ c ∈ text, isCapital c = true ∨ c = '_') :
    Text.cutWords mode reversed text =
      ((text.splitOn '_').modifyHead (reversed.reverse ++ ·)).filter (!·.isEmpty) := by
  induction text generalizing mode reversed with
  | nil => cases reversed <;> simp [Text.cutWords, Text.closeWord]
  | cons c text ih =>
    obtain ⟨hc, hrest⟩ := List.forall_mem_cons.1 htext
    rcases hc with hc | rfl
    · have halpha : Text.isAlphanumeric c = true :=
        (Text.isAlphanumeric_ascii (Text.ascii_of_isAlphanum (isAlphanum_of_isCapital hc))).trans
          (isAlphanum_of_isCapital hc)
      have hafter : mode.after c ≠ .lower := by
        rw [Text.CaseMode.after, isLowercase_of_isCapital (.inl hc), if_neg Bool.false_ne_true]
        split
        · simp
        · exact hmode
      have hnext : text.head?.any Text.isLowercase = false := by
        cases text with
        | nil => rfl
        | cons c' _ => exact isLowercase_of_isCapital (hrest c' List.mem_cons_self)
      have hne : c ≠ '_' := by
        rintro rfl
        exact absurd hc (by decide)
      rw [Text.cutWords, halpha, hnext, List.splitOn, List.splitOnP_cons_eq_if_modifyHead]
      simp [hafter, ih hafter hrest, hne, List.splitOn, Function.comp_def]
    · have hkept : (text.splitOn '_').modifyHead (([] : List Char).reverse ++ ·) = text.splitOn '_' := by
        cases text.splitOn '_' <;> rfl
      have hfresh : Text.cutWords .boundary [] text = (text.splitOn '_').filter (!·.isEmpty) := by
        rw [ih (by simp) hrest, hkept]
      have hcut : ('_' :: text).splitOn '_' = [] :: text.splitOn '_' := List.splitOnP_cons_eq_if_modifyHead _ _
      rw [Text.cutWords, show Text.isAlphanumeric '_' = false by decide, hfresh, hcut]
      cases reversed <;> simp [Text.closeWord]

theorem isCapitalWord_iff : isCapitalWord w = true ↔
    ∃ c w', w = c :: w' ∧ c.isUpper = true ∧ ∀ c' ∈ w', isCapital c' = true := by
  cases w with
  | nil => simp [isCapitalWord]
  | cons c w' =>
    simp only [isCapitalWord, List.head?_cons, Option.any_some, List.all_cons, Bool.and_eq_true, List.all_eq_true,
      List.cons.injEq]
    constructor
    · exact fun h => ⟨c, w', ⟨rfl, rfl⟩, h.1, h.2.2⟩
    · rintro ⟨_, _, ⟨rfl, rfl⟩, hc, hw⟩
      exact ⟨hc, by simp [isCapital, hc], hw⟩

/-- The words of a name in capital letters are what stands between its underscores. -/
theorem words_capitals {n : String} (h : isCapitals n = true) : Text.words n.toList = n.toList.splitOn '_' := by
  have hwords : ∀ w ∈ n.toList.splitOn '_', isCapitalWord w = true := List.all_eq_true.1 h
  have htext : ∀ c ∈ n.toList, isCapital c = true ∨ c = '_' := by
    intro c hc
    have hjoined : ['_'].intercalate (n.toList.splitOn '_') = n.toList := List.intercalate_splitOn '_'
    rw [← hjoined] at hc
    rcases mem_of_mem_intercalate hc with hc | ⟨w, hw, hc⟩
    · exact .inr (List.mem_singleton.1 hc)
    · have hword := hwords w hw
      rw [isCapitalWord, Bool.and_eq_true] at hword
      exact .inl (List.all_eq_true.1 hword.2 c hc)
  have hkept : (n.toList.splitOn '_').modifyHead (([] : List Char).reverse ++ ·) = n.toList.splitOn '_' := by
    cases n.toList.splitOn '_' <;> rfl
  rw [Text.words, cutWords_capitals (by simp) htext, hkept, List.filter_eq_self]
  intro w hw
  obtain ⟨c, w', rfl, -, -⟩ := isCapitalWord_iff.1 (hwords w hw)
  rfl

/-- A word keeps its first letter and shows no other capital letter. -/
theorem capitalized_capitals (hc : c.isUpper = true) (hw : ∀ c' ∈ w, isCapital c' = true) :
    Text.capitalized (c :: w) = c :: w.map Char.toLower := by
  have hcapital : ∀ c' ∈ c :: w, isCapital c' = true := List.forall_mem_cons.2 ⟨by simp [isCapital, hc], hw⟩
  rw [Text.capitalized_ascii fun c' hc' => Text.ascii_of_isAlphanum (isAlphanum_of_isCapital (hcapital c' hc')),
    Char.toUpper_eq_of_not_isLower (by simp [isLower_of_isCapital (hcapital c List.mem_cons_self)])]

/-- Small letters show which capital letters they were. -/
theorem map_toLower_injective (hw : ∀ c ∈ w, isCapital c = true) (hv : ∀ c ∈ v, isCapital c = true)
    (h : w.map Char.toLower = v.map Char.toLower) : w = v := by
  have hback : ∀ {w : List Char}, (∀ c ∈ w, isCapital c = true) → (w.map Char.toLower).map Char.toUpper = w := by
    intro w hw
    rw [List.map_map]
    refine (List.map_congr_left fun c hc => ?_).trans (List.map_id _)
    rw [Function.comp_apply, Char.toUpper_toLower_eq_toUpper,
      Char.toUpper_eq_of_not_isLower (by simp [isLower_of_isCapital (hw c hc)]), id_eq]
  rw [← hback hw, ← hback hv, h]

/-- The text after a capitalized word begins with a capital letter, so the word ends before the next one. -/
theorem takeWhile_capitalized {ws : List (List Char)} (hws : ∀ w ∈ ws, isCapitalWord w = true) (w : List Char) :
    (w.map Char.toLower ++ ws.flatMap Text.capitalized).takeWhile (!·.isUpper) = w.map Char.toLower := by
  have hend : (ws.flatMap Text.capitalized).takeWhile (!·.isUpper) = [] := by
    cases ws with
    | nil => rfl
    | cons v ws =>
      obtain ⟨c, v', rfl, hc, hv⟩ := isCapitalWord_iff.1 (hws v List.mem_cons_self)
      rw [List.flatMap_cons, capitalized_capitals hc hv, List.cons_append]
      exact List.takeWhile_cons_of_neg (by simp [hc])
  rw [List.takeWhile_append_of_pos (by simp), hend, List.append_nil]

/-- Capitalized words in a row can be told apart. -/
theorem flatMap_capitalized_injective : ∀ {ws vs : List (List Char)}, (∀ w ∈ ws, isCapitalWord w = true) →
    (∀ w ∈ vs, isCapitalWord w = true) → ws.flatMap Text.capitalized = vs.flatMap Text.capitalized → ws = vs
  | [], [], _, _, _ => rfl
  | [], v :: vs, _, hvs, h => by
    obtain ⟨c, v', rfl, hc, hv⟩ := isCapitalWord_iff.1 (hvs v List.mem_cons_self)
    simp [capitalized_capitals hc hv] at h
  | w :: ws, [], hws, _, h => by
    obtain ⟨c, w', rfl, hc, hw⟩ := isCapitalWord_iff.1 (hws w List.mem_cons_self)
    simp [capitalized_capitals hc hw] at h
  | w :: ws, v :: vs, hws, hvs, h => by
    obtain ⟨hfirst, hrest⟩ := List.forall_mem_cons.1 hws
    obtain ⟨hfirst', hrest'⟩ := List.forall_mem_cons.1 hvs
    obtain ⟨c, w', rfl, hc, hw⟩ := isCapitalWord_iff.1 hfirst
    obtain ⟨c', v', rfl, hc', hv⟩ := isCapitalWord_iff.1 hfirst'
    rw [List.flatMap_cons, List.flatMap_cons, capitalized_capitals hc hw, capitalized_capitals hc' hv,
      List.cons_append, List.cons_append] at h
    obtain ⟨rfl, htail⟩ := List.cons.inj h
    have hlower : w'.map Char.toLower = v'.map Char.toLower := by
      rw [← takeWhile_capitalized hrest w', htail, takeWhile_capitalized hrest' v']
    rw [hlower, List.append_cancel_left_eq] at htail
    rw [map_toLower_injective hw hv hlower, flatMap_capitalized_injective hrest hrest' htail]

/-- **Names in capital letters stay apart** when they become names of types or variants. -/
theorem typeName_injOn_capitals {m n : String} (hm : isCapitals m = true) (hn : isCapitals n = true)
    (h : typeName m = typeName n) : m = n := by
  have hname : ∀ {n : String}, isCapitals n = true →
      (typeName n).toList = (n.toList.splitOn '_').flatMap Text.capitalized := by
    intro n hn
    have hfirst : ∃ c cs, (n.toList.splitOn '_').flatMap Text.capitalized = c :: cs ∧ c.isUpper = true := by
      obtain ⟨w, ws, hws⟩ := List.exists_cons_of_ne_nil (List.splitOnP_ne_nil (· == '_') n.toList)
      have hws : n.toList.splitOn '_' = w :: ws := hws
      have hwords : ∀ w ∈ n.toList.splitOn '_', isCapitalWord w = true := List.all_eq_true.1 hn
      rw [hws, List.forall_mem_cons] at hwords
      obtain ⟨c, w', rfl, hc, hw⟩ := isCapitalWord_iff.1 hwords.1
      refine ⟨c, w'.map Char.toLower ++ ws.flatMap Text.capitalized, ?_, hc⟩
      rw [hws, List.flatMap_cons, capitalized_capitals hc hw, List.cons_append]
    obtain ⟨c, cs, hcs, hc⟩ := hfirst
    have hdigit : c.isDigit = false := by
      rw [Bool.eq_false_iff]
      intro hdigit
      simp [(Text.not_isAlpha_of_isDigit hdigit).1] at hc
    rw [typeName, Text.upperCamel, words_capitals hn, hcs, withStem]
    simp [hdigit]
  have hwords : n.toList.splitOn '_' = m.toList.splitOn '_' :=
    flatMap_capitalized_injective (List.all_eq_true.1 hn) (List.all_eq_true.1 hm)
      (by rw [← hname hn, ← hname hm, h])
  have hjoined : ∀ {n : String}, ['_'].intercalate (n.toList.splitOn '_') = n.toList := List.intercalate_splitOn '_'
  rw [← String.toList_inj, ← hjoined, ← hwords, hjoined]

/-- Of names in capital letters, `n` alone becomes what it becomes. -/
theorem typeName_mem_capitals {names : List String} {n : String} (hnames : ∀ m ∈ names, isCapitals m = true)
    (hn : isCapitals n = true) : typeName n ∈ names.map typeName ↔ n ∈ names := by
  constructor
  · intro h
    obtain ⟨m, hm, hsame⟩ := List.mem_map.1 h
    exact typeName_injOn_capitals (hnames m hm) hn hsame ▸ hm
  · exact fun h => List.mem_map_of_mem h

/-- **Names in capital letters** give the variants names of their own unless both `UNKNOWN` and `UNKNOWN_VALUE` are
among them. -/
theorem capital_variantNames_nodup_iff {kinds : Kinds} {t : Shape} (hcased : t.isCased = true) (hplain : t.PlainCases)
    (hcapitals : ∀ n ∈ t.caseNames, isCapitals n = true) (hdistinct : t.caseNames.Nodup) :
    ∃ item, shapeItem kinds t = .ok item ∧
      (item.variantNames.Nodup ↔ ¬ ("UNKNOWN" ∈ t.caseNames ∧ "UNKNOWN_VALUE" ∈ t.caseNames)) := by
  obtain ⟨item, hitem, hnames⟩ : ∃ item, shapeItem kinds t = .ok item ∧ _ := shapeItem_variantNames hcased hplain
  have happart : (t.caseNames.map typeName).Nodup :=
    hdistinct.map_on fun m hm n hn => typeName_injOn_capitals (hcapitals m hm) (hcapitals n hn)
  have hunknown := typeName_mem_capitals hcapitals (show isCapitals "UNKNOWN" = true by decide)
  have hvalue := typeName_mem_capitals hcapitals (show isCapitals "UNKNOWN_VALUE" = true by decide)
  rw [show typeName "UNKNOWN" = "Unknown" by decide +kernel] at hunknown
  rw [show typeName "UNKNOWN_VALUE" = "UnknownValue" by decide +kernel] at hvalue
  refine ⟨item, hitem, ?_⟩
  rw [hnames, map_escapeWord_nodup hplain.cases, plainVariantNames_nodup, hunknown, hvalue]
  exact and_iff_right happart

end capitals

end Emission

end TypedQuery
