/-
Names in a run. Shapes get their names in four ways: an enum and an input
object have their own, a selected shape the first free candidate of its
type's, and the data of an operation a name made of the operation's
(`Named`). Only selected shapes give way to a name that is taken, so a
collision needs a name that two of the others want, or one that a selected
shape has taken before. Data names aside, the second is all that is left, and
it takes an enum whose name is a candidate of a composite type's
(`generate_collision`): input objects refer to what has their name instead.
-/
import Mathlib
import TypedQuery.Proofs.Failures

namespace TypedQuery

open Generator

namespace Schema

/-- The name of a type of the schema, alone or followed by digits. -/
def numbered (s : Schema) (name : String) : Bool :=
  s.types.any fun t =>
    t.name.toList.isPrefixOf name.toList && (name.toList.drop t.name.toList.length).all Char.isDigit

theorem numbered_candidate {s : Schema} {name : String} {t : TypeDefinition} (h : s.find? name = some t) (k : Nat) :
    s.numbered (Registry.candidate name k) = true := by
  obtain ⟨digits, hall, hname⟩ := Registry.candidate_digits name k
  obtain rfl := find?_name h
  simp only [numbered, List.any_eq_true, Bool.and_eq_true, List.isPrefixOf_iff_prefix, List.all_eq_true]
  exact ⟨t, mem_of_find? h, by simp [hname], by simpa [hname] using hall⟩

/-- The name of a type is one. -/
theorem numbered_of_find? {s : Schema} {name : String} {t : TypeDefinition} (h : s.find? name = some t) :
    s.numbered name = true :=
  numbered_candidate h 0

/-- The name of a shape, by the kind of type that it is the shape of. `used` are the names of the
data of operations. -/
inductive Named (s : Schema) (used : List String) : Shape → Prop
  | enumeration {d} (h : s.find? d.name = some (.enumeration d)) : Named s used d.shape
  | input {t d} (h : s.find? t.name = some (.input d)) : Named s used t
  | selected {t c k} (h : s.find? t.schemaType = some c) (hc : c.isComposite = true)
    (hn : t.name = Registry.candidate t.schemaType k) : Named s used t
  | data {t} (h : t.name ∈ used) : Named s used t

/-- Every shape of a registry is named in one of these ways. -/
def AllNamed (s : Schema) (used : List String) (r : Registry) : Prop := ∀ t ∈ r.shapes, s.Named used t

/-- A collision, if the error is one, is of an enum with a selected shape that has got the name of
the enum for a candidate. -/
def Suffixed (s : Schema) (e : GenerationError) : Prop :=
  ∀ a b, e = .nameCollision a b → ∃ d c k, s.find? d.name = some (.enumeration d) ∧ b = d.shape ∧
    s.find? a.schemaType = some c ∧ c.isComposite = true ∧ a.name = d.name ∧
    d.name = Registry.candidate c.name (k + 1)

section Named

variable {s : Schema} {used : List String} {r r' : Registry} {t : Shape}

theorem AllNamed.keeps (h : s.AllNamed used r) (hk : r.Keeps t r') (ht : s.Named used t) : s.AllNamed used r' :=
  hk.all h ht

theorem Named.cons (h : s.Named used t) (name : String) : s.Named (name :: used) t := by
  cases h with
  | enumeration h => exact .enumeration h
  | input h => exact .input h
  | selected h hc hn => exact .selected h hc hn
  | data h => exact .data (List.mem_cons_of_mem _ h)

theorem not_mem_names_of_keeps (hk : r.Keeps t r') {n : String} (hn : n ∉ r.names) (hne : n ≠ t.name) :
    n ∉ r'.names := by
  rcases hk.grown with rfl | ⟨-, hs⟩
  · exact hn
  · simpa [Registry.names, hs] using ⟨by simpa [Registry.names] using hn, hne⟩

/-- The input objects that are being expanded are inputs of the schema, and no shape has the name of one. -/
def Entered (s : Schema) (p : Progress) : Prop :=
  ∀ n ∈ p.expanding, n ∉ p.registry.names ∧ ∃ d, s.find? n = some (.input d)

theorem Entered.keeps {p : Progress} (h : s.Entered p) (hk : p.registry.Keeps t r') (ht : t.name ∉ p.expanding) :
    s.Entered ⟨r', p.expanding⟩ :=
  fun n hn => ⟨not_mem_names_of_keeps hk (h n hn).1 fun he => ht (he ▸ hn), (h n hn).2⟩

theorem Entered.enumeration {p : Progress} (h : s.Entered p) {d : EnumDefinition}
    (hd : s.find? d.name = some (.enumeration d)) : d.name ∉ p.expanding := by
  intro hn
  obtain ⟨-, d', hd'⟩ := h d.name hn
  cases hd'.symm.trans hd

theorem Entered.enter {p : Progress} (h : s.Entered p) {d : InputDefinition} (hd : s.find? d.name = some (.input d))
    (hn : d.name ∉ p.registry.names) : s.Entered (p.enter d.name) :=
  List.forall_mem_cons.2 ⟨⟨hn, d, hd⟩, h⟩

/-- Nothing has taken the name of an input object while its fields were resolved. -/
theorem Entered.leave {p q : Progress} {name : String} (h : s.Entered q) (hexp : q.expanding = name :: p.expanding) :
    name ∉ q.registry.names ∧ s.Entered (q.backTo p) := by
  unfold Entered at h
  rw [hexp, List.forall_mem_cons] at h
  exact ⟨h.1.1, h.2⟩

theorem suffixed_of_ne {e : GenerationError} (h : ∀ a b, e ≠ .nameCollision a b) : s.Suffixed e :=
  fun a b he => absurd he (h a b)

/-- A shape that has the name of an enum, and is not the enum's, was selected. -/
theorem Named.suffixed (ht : s.Named used t) (hused : ∀ n ∈ used, s.numbered n = false) {d : EnumDefinition}
    (hd : s.find? d.name = some (.enumeration d)) (hname : t.name = d.name) (hne : t ≠ d.shape) :
    s.Suffixed (.nameCollision t d.shape) := by
  rintro _ _ ⟨⟩
  cases ht with
  | @enumeration d' h =>
    have hd' : s.find? d'.name = some (.enumeration d) := (congrArg s.find? hname).trans hd
    rw [h] at hd'
    cases hd'
    exact absurd rfl hne
  | input h =>
    rw [hname, hd] at h
    cases h
  | @selected _ c k h hc hn =>
    rw [← find?_name h] at hn
    cases k with
    | zero =>
      rw [hname] at hn
      have hself := find?_self h
      rw [← show d.name = c.name from hn, hd] at hself
      cases hself
      cases hc
    | succ k => exact ⟨d, c, k, hd, rfl, h, hc, hname, hname ▸ hn⟩
  | data h =>
    have hnumbered := hused _ (hname ▸ h)
    rw [numbered_of_find? hd] at hnumbered
    cases hnumbered

/-- No shape has the name of the data of an operation that comes later. -/
theorem Named.ne_data (ht : s.Named used t) {name : String} (hname : s.numbered name = false)
    (hnew : name ∉ used) : t.name ≠ name := by
  have hne : ∀ {type c} (k : Nat), s.find? type = some c → Registry.candidate type k ≠ name := by
    rintro type c k h rfl
    rw [numbered_candidate h k] at hname
    cases hname
  cases ht with
  | enumeration h => exact hne 0 h
  | input h => exact hne 0 h
  | @selected _ _ k h _ hn => exact hn ▸ hne k h
  | data h => exact fun he => hnew (he ▸ h)

end Named

/-! ## Runs -/

/-- The name of the data of an operation. -/
abbrev dataName (s : Schema) (op : Operation) : String := op.dataTypeName (s.rootType op.kind)

/-- While output shapes are made: every shape is named, and no input object is being expanded. -/
def NamedOutputs (s : Schema) (used : List String) (p : Progress) : Prop :=
  s.AllNamed used p.registry ∧ p.expanding = []

/-- While inputs are resolved: every shape is named, and none has the name of an input object that is
being expanded. -/
def NamedInputs (s : Schema) (used : List String) (p : Progress) : Prop :=
  s.AllNamed used p.registry ∧
    ∀ n ∈ p.expanding, n ∉ p.registry.names ∧ ∃ d, s.find? n = some (.input d)

section runs

variable {s : Schema} {used : List String}

/-- A selection that cannot be resolved is no collision. -/
theorem judges_suffixed (s : Schema) : s.Judges s.Suffixed (fun _ _ => True) where
  ordinary := by
    rintro e he
    refine suffixed_of_ne ?_
    rintro a b rfl
    cases he
  fragment := fun _ _ _ _ _ _ => ⟨fun _ he => suffixed_of_ne (checkCompatible_ne he), fun _ _ => trivial⟩
  cyclic := fun _ _ _ _ _ he => suffixed_of_ne (checkCompatible_ne he)
  declared := fun _ _ _ _ _ _ _ _ _ => suffixed_of_ne fun _ _ he => nomatch he
  below := fun _ _ _ _ _ _ _ _ _ _ _ _ => trivial
  split := fun _ _ _ _ _ _ => ⟨fun _ _ => trivial, fun _ _ _ _ _ _ => trivial⟩

/-- The shape of an enum is kept under its name, unless a selected shape has it. -/
theorem ends_enumShape {J : Progress → Prop} (hused : ∀ n ∈ used, s.numbered n = false) {d : EnumDefinition}
    (hd : s.find? d.name = some (.enumeration d)) {p : Progress} (hp : s.AllNamed used p.registry)
    (hJ : ∀ r, p.registry.Keeps d.shape r → J ⟨r, p.expanding⟩) : Ends s.Suffixed (enumShape d) J p := by
  refine ends_register_some (fun t ht hne => ?_) hJ
  exact (hp t (Registry.mem_of_lookup? ht)).suffixed hused hd (Registry.lookup?_name ht) hne

theorem allows_named (hused : ∀ n ∈ used, s.numbered n = false) : s.Allows (s.NamedOutputs used) s.Suffixed where
  composite := fun shape t ht hc hname p hp => ends_register_none fun k r hk =>
    ⟨hp.1.keeps hk (.selected ht hc (by rw [hname])), hp.2⟩
  enumeration := fun d hd p hp => ends_enumShape hused hd hp.1 fun r hk => ⟨hp.1.keeps hk (.enumeration hd), hp.2⟩

theorem allowsInputs_named (hused : ∀ n ∈ used, s.numbered n = false) :
    s.AllowsInputs (s.NamedInputs used) s.Suffixed where
  ordinary := (judges_suffixed s).ordinary
  enumeration := by
    intro d hd p hp
    have hentered : s.Entered p := hp.2
    exact ends_enumShape hused hd hp.1 fun r hk =>
      ⟨hp.1.keeps hk (.enumeration hd), hentered.keeps hk (hentered.enumeration hd)⟩
  enter := by
    intro d p hd hnames hp
    have hentered : s.Entered p := hp.2
    exact ⟨hp.1, hentered.enter hd hnames⟩
  input := by
    intro d p q qs hd hn hq hexp
    have hentered : s.Entered q := hq.2
    obtain ⟨hfree, hback⟩ := hentered.leave hexp
    refine ends_register_some (fun t ht _ => ?_) fun r hk => ⟨hq.1.keeps hk (.input hd), hback.keeps hk hn⟩
    exact absurd (Registry.contains_iff.1 (Option.isSome_iff_exists.2 ⟨t, ht⟩)) hfree

/-- An operation whose data has a new name collides only with a suffixed name. -/
theorem generateOperation_named {d : Document} {op : Operation} (hused : ∀ n ∈ used, s.numbered n = false)
    (hdata : s.numbered (s.dataName op) = false) (hnew : s.dataName op ∉ used) :
    Leads (s.NamedOutputs used) s.Suffixed (s.generateOperation d op) (s.NamedOutputs (s.dataName op :: used)) := by
  have hused' : ∀ n ∈ s.dataName op :: used, s.numbered n = false := List.forall_mem_cons.2 ⟨hdata, hused⟩
  have hregister : ∀ shape, Leads (s.NamedOutputs used) s.Suffixed (register shape (some (s.dataName op)))
      (s.NamedOutputs (s.dataName op :: used)) := by
    intro shape p hp
    refine ends_register_some (fun t ht _ => ?_) fun r hk => ⟨?_, hp.2⟩
    · exact absurd (Registry.lookup?_name ht) ((hp.1 t (Registry.mem_of_lookup? ht)).ne_data hdata hnew)
    · exact AllNamed.keeps (fun t ht => (hp.1 t ht).cons _) hk (.data List.mem_cons_self)
  have hshapes : Leads (s.NamedOutputs used) s.Suffixed (s.operationShapes d op)
      (s.NamedInputs (s.dataName op :: used)) :=
    operationShapes_leads (judges_suffixed s) (allows_named hused) (allowsInputs_named hused') (fun _ _ => trivial)
      hregister fun p hp => ⟨hp.1, by simp [hp.2]⟩
  intro p hp
  obtain ⟨herror, hok⟩ := generateOperation_leads hshapes p hp
  refine ⟨herror, fun shape p' hr => ⟨(hok shape p' hr).1, ?_⟩⟩
  exact ((operationShapes_grows d op).runs (generateOperation_runs.1 hr)).expanding.trans hp.2

/-- So do operations one after the other, whose data all have different names. -/
theorem mapM_generateOperation_named {d : Document} : ∀ (ops : List Operation) (used : List String) {p : Progress},
    (∀ n ∈ used, s.numbered n = false) → (∀ op ∈ ops, s.numbered (s.dataName op) = false) →
    (∀ op ∈ ops, s.dataName op ∉ used) → (ops.map s.dataName).Nodup → s.NamedOutputs used p →
    Ends s.Suffixed (ops.mapM (s.generateOperation d)) (fun _ => True) p
  | [], _, _, _, _, _, _, _ => ends_pure trivial
  | op :: ops, used, p, hused, hfree, hnew, hdistinct, hp => by
    obtain ⟨hdata, hfree⟩ := List.forall_mem_cons.1 hfree
    obtain ⟨hop, hnew⟩ := List.forall_mem_cons.1 hnew
    rw [List.map_cons, List.nodup_cons] at hdistinct
    rw [List.mapM_cons]
    refine (generateOperation_named hused hdata hop p hp).bind fun _ p' hp' => ?_
    refine (mapM_generateOperation_named ops _ (List.forall_mem_cons.2 ⟨hdata, hused⟩) hfree (fun o ho => ?_)
      hdistinct.2 hp').bind fun _ _ _ => ends_pure trivial
    rw [List.mem_cons, not_or]
    exact ⟨fun he => hdistinct.1 (he ▸ List.mem_map_of_mem ho), hnew o ho⟩

/-- Where the data of operations have names of their own, every collision is of an enum with a
selected shape that has got the name of the enum for a candidate. -/
theorem generate_collision {d : Document} (hdistinct : (d.operations.map s.dataName).Nodup)
    (hfree : ∀ op ∈ d.operations, s.numbered (s.dataName op) = false)
    {e : GenerationError} (h : s.generate d = .error e) : s.Suffixed e := by
  have hends : Ends s.Suffixed (d.operations.mapM (s.generateOperation d)) (fun _ => True) .start :=
    mapM_generateOperation_named d.operations [] (by simp) hfree (by simp) hdistinct
      ⟨by simp [AllNamed, Progress.start, Registry.empty], rfl⟩
  unfold generate at h
  rcases hrun : outcome (d.operations.mapM (s.generateOperation d)) .start with ⟨e' | operations, p⟩
  · rw [show (d.operations.mapM (s.generateOperation d)).run .start = _ from hrun] at h
    cases h
    exact hends.1 _ _ hrun
  · rw [show (d.operations.mapM (s.generateOperation d)).run .start = _ from hrun] at h
    cases h

/-- **Names never collide** where the data of operations have names of their own, and no enum is
named like a composite type with one of the suffixes `2`, `3`, … -/
theorem generate_never_collides {d : Document} (hdistinct : (d.operations.map s.dataName).Nodup)
    (hfree : ∀ op ∈ d.operations, s.numbered (s.dataName op) = false)
    (henums : ∀ e c k, .enumeration e ∈ s.types → c ∈ s.types → c.isComposite = true →
      e.name ≠ Registry.candidate c.name (k + 1)) : ¬ ∃ a b, s.generate d = .error (.nameCollision a b) := by
  rintro ⟨a, b, h⟩
  obtain ⟨e, c, k, he, -, hc, hcomposite, -, hname⟩ := generate_collision hdistinct hfree h a b rfl
  exact henums e c k (mem_of_find? he) (mem_of_find? hc) hcomposite hname

end runs

/-! Users selected in two ways get the shapes `User` and `User2`. -/

def people (role : String) : Schema where
  types := [
    .scalar ⟨"String", none⟩, .scalar ⟨"ID", none⟩,
    .object ⟨"User", none, [], [⟨"id", .named "ID", none⟩, ⟨"name", .named "String", none⟩]⟩,
    .enumeration ⟨role, none, [⟨"A", none⟩]⟩,
    .object ⟨"Query", none, [], [⟨"user", .named "User", none⟩, ⟨"kind", .named role, none⟩]⟩]
  roots := {}
  scalars := .default

def peopleDocument : Document where
  operations := [⟨none, .query, [], [
    .field (some "a") "user" false [.field none "id" false []],
    .field (some "b") "user" false [.field none "name" false []],
    .field none "kind" false []],
    "\x7b a: user \x7b id \x7d b: user \x7b name \x7d kind \x7d"⟩]
  fragments := []

theorem role_never_collides : ¬ ∃ a b, (people "Role").generate peopleDocument = .error (.nameCollision a b) := by
  refine generate_never_collides (by decide) (by decide) fun e c k he hc hcomposite hname => ?_
  have hchars := congrArg String.toList hname
  simp only [people, List.mem_cons, List.not_mem_nil, reduceCtorEq, TypeDefinition.enumeration.injEq, false_or,
    or_false] at he hc
  subst he
  rcases hc with rfl | rfl | rfl | rfl | rfl
  · cases hcomposite
  · cases hcomposite
  · simp [Registry.candidate, TypeDefinition.name] at hchars
  · cases hcomposite
  · simp [Registry.candidate, TypeDefinition.name] at hchars

/-- The second shape of `User` takes the name of the enum, which comes after it. -/
theorem user2_collides :
    (peopleDocument.operations.map (people "User2").dataName).Nodup ∧
    (∀ op ∈ peopleDocument.operations, (people "User2").numbered ((people "User2").dataName op) = false) ∧
    ∃ a b, (people "User2").generate peopleDocument = .error (.nameCollision a b) :=
  ⟨by decide, by decide, _, _, by cbv⟩

end Schema

end TypedQuery
