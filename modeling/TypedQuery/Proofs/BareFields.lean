/-
Fields of composite types without selections. Nothing can be made of a site at
which nothing is selected, so an operation fails if it comes to one. What is
selected below a key is looked at only once all its occurrences have been
merged (`selections_eq_nil_iff`): a key that is bare wherever it occurs makes
the operation fail (`bare_key_fails`), but a bare occurrence beside one with
selections is taken in (`bare_occurrence_taken`).
-/
import TypedQuery.Proofs.Sites

namespace TypedQuery

open Generator

/-! ## Merged selections -/

namespace CollectedField

/-- Nothing is selected below a key if and only if that is so of every occurrence. -/
theorem Merged.selections_eq_nil_iff {occurrences fields : List CollectedField} (h : Merged occurrences fields)
    {f : CollectedField} (hf : f ∈ fields) :
    f.selections = [] ↔ ∀ o ∈ occurrences, o.key = f.key → o.selections = [] := by
  have hany := h.selections_iff Expanded.additive_ne_nil marked_ne_nil_iff hf
  constructor
  · intro hnil o ho hkey
    by_contra hne
    exact hany.2 ⟨o, ho, hkey, hne⟩ hnil
  · intro hbare
    by_contra hne
    obtain ⟨o, ho, hkey, hsub⟩ := hany.1 hne
    exact hsub (hbare o ho hkey)

end CollectedField

/-! ## Bare keys -/

namespace Schema

/-- At the site, nothing is selected below any occurrence of the key. -/
def Bare (s : Schema) (c : CallSite) (key : String) : Prop :=
  ∀ ⦃name conditional below⦄,
    Expanded.Occurs (s.covers · c.type.name = true) c.selections key name conditional below → below = []

variable {s : Schema} {d : Document} {op : Operation} {c : CallSite}

/-- The fields of a shape's own properties are among the selections of the site. -/
theorem occurs_of_own {own : List Expanded} (hown : c.Own s own) {key name : String} {conditional : Bool}
    {below : List Expanded} (ho : Expanded.Occurs (s.covers · c.type.name = true) own key name conditional below) :
    Expanded.Occurs (s.covers · c.type.name = true) c.selections key name conditional below := by
  cases hown with
  | object => exact ho
  | common _ hsplit => exact (Expanded.splits_of_split hsplit).occurs_of_common ho

theorem Bare.selections_eq_nil {f : CollectedField} (h : s.Bare c f.key) {collected : List CollectedField}
    (hcollects : c.Collects s collected) (hf : f ∈ collected) : f.selections = [] := by
  obtain ⟨own, hown, hcollect⟩ := hcollects
  refine ((Expanded.merged_of_collect hcollect).selections_eq_nil_iff hf).2 fun o ho hkey => ?_
  obtain ⟨_, hocc, -⟩ := Expanded.occurs_of_mem_fieldsIn ho
  exact h (hkey ▸ occurs_of_own hown hocc)

/-- **A composite field that is bare wherever it occurs makes the operation fail**, at whatever site it is
collected, and from any progress. -/
theorem bare_key_fails (hsite : s.Sites d op c) {collected : List CollectedField} (hcollects : c.Collects s collected)
    {f : CollectedField} (hf : f ∈ collected) {g : FieldDefinition} (hg : s.declaration? c.type.fields f = some g)
    {t : TypeDefinition} (ht : s.find? g.type.baseName = some t) (hcomposite : t.isComposite = true)
    (hbare : s.Bare c f.key) (p : Progress) : ∃ e, outcome (s.generateOperation d op) p = (.error e, p) := by
  have hbelow := hsite.field hcollects hf hg ht hcomposite
  rw [outcome_generateOperation]
  rcases h : outcome (s.operationShapes d op) p with ⟨e | shape, p'⟩
  · exact ⟨e, rfl⟩
  · exact absurd (hbare.selections_eq_nil hcollects hf) (hbelow.selections_ne_nil h)

/-! The user of a query selected twice, the second time in a fragment. Nothing is selected below the first. -/

def bareQuery : Operation :=
  ⟨none, .query, [], [.field none "user" false [], .spread "Again" false], "\x7b user ...Again \x7d"⟩

def userAgain (below : List Selection) (source : String) : Document where
  operations := [bareQuery]
  fragments := [⟨"Again", "Query", [.field none "user" false below], source⟩]

def bareAgain : Document := userAgain [] "fragment Again on Query \x7b user \x7d"

def idAgain : Document := userAgain [.field none "id" false []] "fragment Again on Query \x7b user \x7b id \x7d \x7d"

/-- The site of the data of the query. -/
def dataSite (d : Document) : CallSite where
  type := .object ⟨"Query", none, [], (people "Role").fieldsOf "Query"⟩
  selections := d.expand bareQuery.selections
  name? := some ((people "Role").dataName bareQuery)

theorem dataSite_sites (d : Document) : (people "Role").Sites d bareQuery (dataSite d) := .data rfl

def userCollected (below : List Expanded) : CollectedField := ⟨"user", "user", "Query", false, below⟩

theorem bareAgain_fails :
    (dataSite bareAgain).Collects (people "Role") [userCollected []] ∧
      (people "Role").Bare (dataSite bareAgain) "user" ∧
      ∃ e, outcome ((people "Role").generateOperation bareAgain bareQuery) .start = (.error e, .start) := by
  have hcollects : (dataSite bareAgain).Collects (people "Role") [userCollected []] := ⟨_, .object rfl, by cbv⟩
  have hbare : (people "Role").Bare (dataSite bareAgain) "user" := by
    intro name conditional below ho
    have hexpand : (dataSite bareAgain).selections = [.field "user" "user" false [],
        .fragment (.named "Again") (some "Query") false [.field "user" "user" false []]] := by cbv
    rw [hexpand, Expanded.occurs_cons] at ho
    rcases ho with ho | ho
    · exact (Expanded.occurs_field.1 ho).2.2.2
    · obtain ⟨-, _, -, ho⟩ := Expanded.occurs_fragment.1 ho
      exact (Expanded.occurs_field.1 ho).2.2.2
  exact ⟨hcollects, hbare, bare_key_fails (f := userCollected []) (g := ⟨"user", .named "User", none⟩)
    (dataSite_sites bareAgain) hcollects List.mem_cons_self rfl rfl rfl hbare .start⟩

/-- The field `user` is of an object type, and is collected from a bare occurrence and one with selections; the
operation succeeds. -/
theorem bare_occurrence_taken : ∃ f g t, (people "Role").Sites idAgain bareQuery (dataSite idAgain) ∧
    (dataSite idAgain).Collects (people "Role") [f] ∧
    (people "Role").declaration? (dataSite idAgain).type.fields f = some g ∧
    (people "Role").find? g.type.baseName = some t ∧ t.isComposite = true ∧
    Expanded.Occurs ((people "Role").covers · "Query" = true) (dataSite idAgain).selections f.key f.name false [] ∧
    ∃ shape p, Runs ((people "Role").generateOperation idAgain bareQuery) .start shape p := by
  refine ⟨userCollected [.field "id" "id" false []], ⟨"user", .named "User", none⟩, _, dataSite_sites idAgain,
    ⟨_, .object rfl, by cbv⟩, rfl, rfl, rfl, ?_, _, _, runs_of_outcome (by cbv)⟩
  have hexpand : (dataSite idAgain).selections = [.field "user" "user" false [],
      .fragment (.named "Again") (some "Query") false [.field "user" "user" false [.field "id" "id" false []]]] := by
    cbv
  rw [hexpand]
  exact .field List.mem_cons_self

end Schema

end TypedQuery
