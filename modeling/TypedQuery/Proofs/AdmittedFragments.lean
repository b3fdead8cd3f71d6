/-
What splitting accepts is not rejected afterwards. The common part of
selections on an interface or a union and the branch of a run-time type are
collected on that type together, and every fragment is checked once more: its
condition against another type than before, and whether it covers the run-time
type and no longer the site. What has all its fragments `Admitted` loses none
of them. The common part is so for the site (`admitted_of_splitInto`), hence
for every object among the run-time types (`Admitted.object`), and so is each
fragment of a branch for its type (`BranchesAdmitted`). So collection there
takes all that splitting put there (`split_admitted`).
-/
import TypedQuery.Proofs.FieldCollection

namespace TypedQuery

namespace Schema

variable {s : Schema} {R : String} {o : ObjectDefinition}

theorem checkCompatible_eq_ok {label : FragmentLabel} {condition enclosing : String} :
    s.checkCompatible label condition enclosing = .ok () ↔
      (∃ t, s.find? condition = some t) ∧ (condition = enclosing ∨ s.overlap condition enclosing = true) := by
  rw [checkCompatible, bind_eq_ok]
  simp only [resolve_eq_ok, exists_and_right]
  refine and_congr_right fun _ => ?_
  by_cases h : condition = enclosing ∨ s.overlap condition enclosing = true
  · simp [h]
  · simp [h]

/-- A fragment on `condition` may stand within `scope`, and what is collected on `site` is collected from it. -/
structure Admits (s : Schema) (site scope condition : String) : Prop where
  compatible : ∀ label, s.checkCompatible label condition scope = .ok ()
  covers : s.covers condition site = true

/-- What is admitted for a site is admitted for each object among its run-time types. -/
theorem Admits.object {site scope condition : String} (h : s.Admits site scope condition)
    (ho : s.find? R = some (.object o)) (hR : R ∈ s.possibleTypes site) : s.Admits R scope condition :=
  ⟨h.compatible, (covers_object ho).2 (mem_possibleTypes_of_covers h.covers hR)⟩

/-- A fragment that covers an object may stand on the object itself. -/
theorem admits_self {scope condition : String} {label : FragmentLabel}
    (h : s.checkCompatible label condition scope = .ok ()) (ho : s.find? R = some (.object o))
    (hR : R ∈ s.possibleTypes condition) : s.Admits R R condition := by
  obtain ⟨hdefined, -⟩ := checkCompatible_eq_ok.1 h
  have hoverlap : s.overlap condition R = true := by
    simp only [overlap, List.any_eq_true, decide_eq_true_eq]
    exact ⟨R, hR, by simp [possibleTypes_object ho]⟩
  exact ⟨fun _ => checkCompatible_eq_ok.2 ⟨hdefined, .inr hoverlap⟩, (covers_object ho).2 hR⟩

end Schema

namespace Expanded

/-- Every fragment among `selections`, which are written in `scope`, is admitted when they are collected on `site`,
and every fragment in it within its condition, at any depth. -/
inductive Admitted (s : Schema) (site : String) : String → List Expanded → Prop
  | nil {scope} : Admitted s site scope []
  | field {scope key name c sub rest} (hr : Admitted s site scope rest) :
    Admitted s site scope (field key name c sub :: rest)
  | fragment {scope label condition c sub rest} (ha : s.Admits site scope condition)
    (hin : Admitted s site condition sub) (hr : Admitted s site scope rest) :
    Admitted s site scope (fragment label (some condition) c sub :: rest)

variable {s : Schema} {site R : String} {o : ObjectDefinition}

/-! ## Run-time types of the site -/

theorem Admitted.object {scope : String} {selections : List Expanded} (h : Admitted s site scope selections)
    (ho : s.find? R = some (.object o)) (hR : R ∈ s.possibleTypes site) : Admitted s R scope selections := by
  induction h with
  | nil => exact .nil
  | field _ ih => exact .field ih
  | fragment ha _ _ ihin ihrest => exact .fragment (ha.object ho hR) ihin ihrest

/-- The outermost fragments may stand on the object in place of the type they were written in. -/
theorem Admitted.self {scope : String} {selections : List Expanded} (h : Admitted s R scope selections)
    (ho : s.find? R = some (.object o)) : Admitted s R R selections := by
  induction h with
  | nil => exact .nil
  | field _ ih => exact .field ih
  | @fragment _ label _ _ _ _ ha hin _ _ ihrest =>
    have hR := (Schema.covers_object ho).1 ha.covers
    exact .fragment (Schema.admits_self (ha.compatible label) ho hR) hin ihrest

/-! ## The branches -/

/-- A fragment that splitting routes to the branch of a run-time type. -/
structure Routed where
  condition : String
  conditional : Bool
  selections : List Expanded

def Routed.fragment (f : Routed) : Expanded := .fragment .inline (some f.condition) f.conditional f.selections

/-- Whatever stands in the branch of an object is a routed fragment that the object admits. -/
def BranchesAdmitted (s : Schema) (branches : Branches) : Prop :=
  ∀ R o, s.find? R = some (.object o) → ∀ e ∈ branches.get R, ∃ f : Routed, e = f.fragment ∧ s.Admits R R f.condition

theorem branchesAdmitted_nil : BranchesAdmitted s [] := by simp [BranchesAdmitted, Branches.get]

theorem BranchesAdmitted.get {branches : Branches} (h : BranchesAdmitted s branches)
    (ho : s.find? R = some (.object o)) :
    ∃ routed : List Routed, branches.get R = routed.map Routed.fragment ∧ ∀ f ∈ routed, s.Admits R R f.condition := by
  have hall := h R o ho
  generalize branches.get R = branch at hall
  induction branch with
  | nil => exact ⟨[], rfl, List.forall_mem_nil _⟩
  | cons e branch ih =>
    obtain ⟨⟨f, rfl, hf⟩, hrest⟩ := List.forall_mem_cons.1 hall
    obtain ⟨routed, rfl, hrouted⟩ := ih hrest
    exact ⟨f :: routed, rfl, List.forall_mem_cons.2 ⟨hf, hrouted⟩⟩

/-- A fragment that may stand in its scope is admitted by the objects that it is routed to. -/
theorem BranchesAdmitted.route {label : FragmentLabel} {scope : String} {f : Routed} {branches : Branches}
    (hb : BranchesAdmitted s branches) (h : s.checkCompatible label f.condition scope = .ok ()) :
    BranchesAdmitted s ((matchedTypes s f.condition site).foldl
      (fun branches t => branches.add t f.fragment) branches) := by
  intro R o ho
  refine Branches.forall_mem_get_foldl_add _ (hb R o ho) fun hR => ?_
  exact ⟨f, rfl, Schema.admits_self h ho (mem_matchedTypes.1 hR).2⟩

/-! ## Splitting -/

/-- What stays in the common part is admitted for the site, each fragment within the type it was written in; what is
routed is admitted by the object it is routed to. -/
theorem admitted_of_splitInto :
    ∀ {selections : List Expanded} {scope : String} {conditional : Bool} {branches branches' : Branches}
      {common : List Expanded}, splitInto s site scope conditional selections branches = .ok (common, branches') →
      BranchesAdmitted s branches → Admitted s site scope common ∧ BranchesAdmitted s branches'
  | [], _, _, _, _, _, h, hb => by
    simp only [splitInto, Except.ok.injEq, Prod.mk.injEq] at h
    obtain ⟨rfl, rfl⟩ := h
    exact ⟨.nil, hb⟩
  | field _ _ _ _ :: rest, _, _, _, _, _, h, hb => by
    simp only [splitInto] at h
    obtain ⟨⟨common₁, branches₁⟩, hrest, h⟩ := bind_eq_ok.1 h
    cases h
    exact (admitted_of_splitInto hrest hb).imp_left .field
  | undefined _ :: rest, _, _, _, _, _, h, _ => by simp [splitInto] at h
  | cyclic name condition :: rest, _, conditional, _, _, _, h, hb => by
    simp only [splitInto] at h
    obtain ⟨_, hcompatible, h⟩ := bind_eq_ok.1 h
    split at h
    next => cases h
    next => exact admitted_of_splitInto h (hb.route (f := ⟨condition, conditional, _⟩) hcompatible)
  | fragment _ condition? c sub :: rest, scope, conditional, _, _, _, h, hb => by
    simp only [splitInto] at h
    obtain ⟨_, hcompatible, h⟩ := bind_eq_ok.1 h
    split at h
    next hcov =>
      obtain ⟨⟨inner, branches₁⟩, hin, h⟩ := bind_eq_ok.1 h
      obtain ⟨⟨common₁, branches₂⟩, hrest, h⟩ := bind_eq_ok.1 h
      cases h
      obtain ⟨hinner, hb₁⟩ := admitted_of_splitInto hin hb
      have hadmits : s.Admits site scope (condition?.getD scope) :=
        ⟨fun _ => Schema.checkCompatible_eq_ok.2 (Schema.checkCompatible_eq_ok.1 hcompatible), hcov⟩
      exact (admitted_of_splitInto hrest hb₁).imp_left (.fragment hadmits hinner)
    next => exact admitted_of_splitInto h (hb.route (f := ⟨condition?.getD scope, conditional || c, sub⟩) hcompatible)

/-! ## Collection -/

/-- Collection inserts every field of what is admitted, one after the other, and goes on with what follows. -/
theorem Admitted.collectFragments_append {scope : String} {selections : List Expanded}
    (h : Admitted s site scope selections) (more : List Expanded) (conditional : Bool) (fields : List CollectedField) :
    collectFragments s site scope conditional (selections ++ more) fields =
      ((fragmentFields (fun _ => true) scope conditional selections).foldlM (fun fields f => f.insert site fields)
        fields >>= collectFragments s site scope conditional more) := by
  induction h generalizing more conditional fields with
  | nil =>
    rw [fragmentFields]
    rfl
  | field _ ih => rw [List.cons_append, collectFragments, fragmentFields, ih]
  | @fragment _ label condition c sub _ ha _ _ ihin ihrest =>
    have hinner : ∀ fields, collectFragments s site condition (conditional || c) sub fields = _ := fun fields => by
      simpa only [List.append_nil] using ihin [] (conditional || c) fields
    simp only [List.cons_append, collectFragments, collectInto, fragmentFields, Option.getD_some, Option.all_some,
      ha.compatible label, ha.covers, if_true, List.foldlM_append, hinner, ihrest, bind_assoc]
    rfl

/-- Of a branch every fragment is collected from. -/
theorem collectFragments_routed {routed : List Routed} (h : ∀ f ∈ routed, s.Admits R R f.condition)
    (fields : List CollectedField) :
    collectFragments s R R false (routed.map Routed.fragment) fields =
      routed.foldlM (fun fields f => collectInto s R f.condition f.conditional f.selections fields) fields := by
  induction routed generalizing fields with
  | nil =>
    rw [List.map_nil, collectFragments]
    rfl
  | cons f routed ih =>
    obtain ⟨hf, hrest⟩ := List.forall_mem_cons.1 h
    simp only [List.map_cons, Routed.fragment, collectFragments, Option.getD_some, hf.compatible .inline, hf.covers,
      if_true, Bool.false_or, List.foldlM_cons]
    exact bind_congr fun fields => ih hrest fields

/-- **What splitting accepts, the run-time types accept again.** For each object among the run-time types of the site
every fragment of the common part, at any depth, may stand within the one around it, the outermost on the object, and
covers the object; so may the fragments of its branch, and they cover it. So what is collected on the object is every
field of the common part, one after the other, and then what is in each fragment of the branch. -/
theorem split_admitted {selections common : List Expanded} {branches : Branches}
    (h : split s site selections = .ok (common, branches)) (hR : R ∈ s.possibleTypes site)
    (ho : s.find? R = some (.object o)) :
    Admitted s R R common ∧ ∃ routed : List Routed, branches.get R = routed.map Routed.fragment ∧
      (∀ f ∈ routed, s.Admits R R f.condition) ∧
      collect s R (common ++ branches.get R) =
        ((fieldsIn (fun _ => true) R false common).foldlM (fun fields f => f.insert R fields) [] >>= fun fields =>
          routed.foldlM (fun fields f => collectInto s R f.condition f.conditional f.selections fields) fields) := by
  obtain ⟨hcommon, hbranches⟩ := admitted_of_splitInto h branchesAdmitted_nil
  have hadmitted : Admitted s R R common := (hcommon.object ho hR).self ho
  obtain ⟨routed, hrouted, hadmits⟩ := hbranches.get ho
  have hown : (routed.map Routed.fragment).filterMap (ownField? R false) = [] := by
    simp [Routed.fragment, ownField?]
  refine ⟨hadmitted, routed, hrouted, hadmits, ?_⟩
  rw [hrouted, collect, collectInto, List.filterMap_append, hown, List.append_nil, fieldsIn, List.foldlM_append,
    bind_assoc]
  refine bind_congr fun fields => ?_
  rw [hadmitted.collectFragments_append]
  exact bind_congr fun fields => collectFragments_routed hadmits fields

/-! The union of dogs and cats: the interface of both stays in the common part, the fragment on dogs goes to their
branch. -/

def petCommon : List Expanded :=
  [field "__typename" "__typename" false [],
   fragment .inline (some "Named") false [field "name" "name" true []]]

def petBranches : Branches := [("Dog", [fragment .inline (some "Dog") true [field "bark" "bark" false []]])]

theorem dog_admitted :
    split Schema.pets "Pet" (Schema.barks.expand Schema.petSelections) = .ok (petCommon, petBranches) ∧
      "Dog" ∈ Schema.pets.possibleTypes "Pet" ∧ Admitted Schema.pets "Dog" "Dog" petCommon ∧
      ∃ routed : List Routed, petBranches.get "Dog" = routed.map Routed.fragment ∧ routed ≠ [] ∧
        ∀ f ∈ routed, Schema.pets.Admits "Dog" "Dog" f.condition := by
  have hsplit : split Schema.pets "Pet" (Schema.barks.expand Schema.petSelections) = .ok (petCommon, petBranches) := by
    cbv
  have hdog : "Dog" ∈ Schema.pets.possibleTypes "Pet" := by decide
  obtain ⟨hcommon, routed, hrouted, hadmits, -⟩ := split_admitted hsplit hdog rfl
  refine ⟨hsplit, hdog, hcommon, routed, hrouted, ?_, hadmits⟩
  rintro rfl
  cases hrouted

end Expanded

end TypedQuery
