/-
What the spreads of a document open to. `Document.Occurs` is field collection
on the document itself, without an order and without merging: a field stands
among selections or in a fragment that applies, at any depth. `Opens` says
that expanded selections are the given ones with every spread opened. Both
have the same occurrences (`Opens.occurs`, `Opens.occurs_of`), and the
expansion of selections that reach no cycle of fragments opens all of them
(`expand_opens`). A walk that ends without an error is such a case
(`walk_ends`).
-/
import TypedQuery.Fragment
import TypedQuery.Proofs.Occurrence
import Mathlib.Logic.Relation

namespace TypedQuery

namespace Document

/-- A field among `selections`, or in fragments among them whose conditions all satisfy `applies`:
its response key, its name, whether it or a fragment around it is conditional, and the selections
below. A fragment without a condition always applies. -/
inductive Occurs (d : Document) (applies : String → Prop) :
    List Selection → String → String → Bool → List Selection → Prop
  | field {selections alias? name c sub} (h : Selection.field alias? name c sub ∈ selections) :
    Occurs d applies selections (alias?.getD name) name c sub
  | inline {selections condition? c inner key name c' sub}
    (h : Selection.inline condition? c inner ∈ selections) (ha : ∀ t ∈ condition?, applies t)
    (ho : Occurs d applies inner key name c' sub) : Occurs d applies selections key name (c || c') sub
  | spread {selections n c f key name c' sub} (h : Selection.spread n c ∈ selections)
    (hf : d.fragment? n = some f) (ha : applies f.condition)
    (ho : Occurs d applies f.selections key name c' sub) : Occurs d applies selections key name (c || c') sub

section Occurs

variable {d : Document} {applies : String → Prop} {selections more : List Selection} {key name : String}
  {c : Bool} {sub : List Selection}

@[simp] theorem not_occurs_nil : ¬ d.Occurs applies [] key name c sub := by
  intro h
  cases h <;> simp_all

theorem occurs_append : d.Occurs applies (selections ++ more) key name c sub ↔
    d.Occurs applies selections key name c sub ∨ d.Occurs applies more key name c sub := by
  constructor
  · intro h
    cases h with
    | field h => exact (List.mem_append.1 h).imp .field .field
    | inline h ha ho => exact (List.mem_append.1 h).imp (.inline · ha ho) (.inline · ha ho)
    | spread h hf ha ho => exact (List.mem_append.1 h).imp (.spread · hf ha ho) (.spread · hf ha ho)
  · rintro (h | h)
    · cases h with
      | field h => exact .field (List.mem_append_left _ h)
      | inline h ha ho => exact .inline (List.mem_append_left _ h) ha ho
      | spread h hf ha ho => exact .spread (List.mem_append_left _ h) hf ha ho
    · cases h with
      | field h => exact .field (List.mem_append_right _ h)
      | inline h ha ho => exact .inline (List.mem_append_right _ h) ha ho
      | spread h hf ha ho => exact .spread (List.mem_append_right _ h) hf ha ho

theorem occurs_cons {selection : Selection} : d.Occurs applies (selection :: more) key name c sub ↔
    d.Occurs applies [selection] key name c sub ∨ d.Occurs applies more key name c sub :=
  (occurs_append : d.Occurs applies ([selection] ++ more) key name c sub ↔ _)

theorem occurs_flatten {groups : List (List Selection)} : d.Occurs applies groups.flatten key name c sub ↔
    ∃ selections ∈ groups, d.Occurs applies selections key name c sub := by
  induction groups with
  | nil => simp
  | cons a groups ih => simp [occurs_append, ih]

@[simp] theorem occurs_field {alias? : Option String} {n : String} {b : Bool} {s : List Selection} :
    d.Occurs applies [.field alias? n b s] key name c sub ↔
      key = alias?.getD n ∧ name = n ∧ c = b ∧ sub = s := by
  constructor
  · intro h
    cases h with
    | field h =>
      simp only [List.mem_singleton, Selection.field.injEq] at h
      obtain ⟨rfl, rfl, rfl, rfl⟩ := h
      exact ⟨rfl, rfl, rfl, rfl⟩
    | inline h | spread h => simp at h
  · rintro ⟨rfl, rfl, rfl, rfl⟩
    exact .field (by simp)

@[simp] theorem occurs_inline {condition? : Option String} {b : Bool} {inner : List Selection} :
    d.Occurs applies [.inline condition? b inner] key name c sub ↔
      (∀ t ∈ condition?, applies t) ∧ ∃ c', c = (b || c') ∧ d.Occurs applies inner key name c' sub := by
  constructor
  · intro h
    cases h with
    | inline h ha ho =>
      simp only [List.mem_singleton, Selection.inline.injEq] at h
      obtain ⟨rfl, rfl, rfl⟩ := h
      exact ⟨ha, _, rfl, ho⟩
    | field h | spread h => simp at h
  · rintro ⟨ha, c', rfl, ho⟩
    exact .inline (List.mem_singleton.2 rfl) ha ho

@[simp] theorem occurs_spread {n : String} {b : Bool} :
    d.Occurs applies [.spread n b] key name c sub ↔ ∃ f, d.fragment? n = some f ∧ applies f.condition ∧
      ∃ c', c = (b || c') ∧ d.Occurs applies f.selections key name c' sub := by
  constructor
  · intro h
    cases h with
    | spread h hf ha ho =>
      simp only [List.mem_singleton, Selection.spread.injEq] at h
      obtain ⟨rfl, rfl⟩ := h
      exact ⟨_, hf, ha, _, rfl, ho⟩
    | field h | inline h => simp at h
  · rintro ⟨f, hf, ha, c', rfl, ho⟩
    exact .spread (List.mem_singleton.2 rfl) hf ha ho

end Occurs

/-! ## Opened selections -/

/-- `expanded` is `selections` with every spread of a defined fragment opened. -/
inductive Opens (d : Document) : List Selection → List Expanded → Prop
  | nil : Opens d [] []
  | field {alias? name c sub expanded rest more} (h : Opens d sub expanded) (hr : Opens d rest more) :
    Opens d (.field alias? name c sub :: rest) (.field (alias?.getD name) name c expanded :: more)
  | inline {condition? c sub expanded rest more} (h : Opens d sub expanded) (hr : Opens d rest more) :
    Opens d (.inline condition? c sub :: rest) (.fragment .inline condition? c expanded :: more)
  | spread {name c f expanded rest more} (hf : d.fragment? name = some f) (h : Opens d f.selections expanded)
    (hr : Opens d rest more) :
    Opens d (.spread name c :: rest) (.fragment (.named name) (some f.condition) c expanded :: more)
  | undefined {name c rest more} (hf : d.fragment? name = none) (hr : Opens d rest more) :
    Opens d (.spread name c :: rest) (.undefined name :: more)

theorem Opens.eq_nil_iff {d : Document} {selections : List Selection} {expanded : List Expanded}
    (h : d.Opens selections expanded) : expanded = [] ↔ selections = [] := by
  cases h <;> simp

/-- Selections open in one way. -/
theorem Opens.unique {d : Document} {selections : List Selection} {expanded expanded' : List Expanded}
    (h : d.Opens selections expanded) (h' : d.Opens selections expanded') : expanded = expanded' := by
  induction h generalizing expanded' with
  | nil =>
    cases h'
    rfl
  | field _ _ ih ihr =>
    cases h' with
    | field h' hr' => rw [ih h', ihr hr']
  | inline _ _ ih ihr =>
    cases h' with
    | inline h' hr' => rw [ih h', ihr hr']
  | spread hf _ _ ih ihr =>
    cases h' with
    | spread hf' h' hr' =>
      obtain rfl := Option.some.inj (hf.symm.trans hf')
      rw [ih h', ihr hr']
    | undefined hf' => cases hf.symm.trans hf'
  | undefined hf _ ihr =>
    cases h' with
    | spread hf' => cases hf.symm.trans hf'
    | undefined _ hr' => rw [ihr hr']

/-- Every field of the opened selections is one of the document's. -/
theorem Opens.occurs {d : Document} {applies : String → Prop} {selections : List Selection}
    {expanded : List Expanded} (h : d.Opens selections expanded) {key name : String} {c : Bool}
    {sub : List Expanded} (ho : Expanded.Occurs applies expanded key name c sub) :
    ∃ below, d.Occurs applies selections key name c below ∧ d.Opens below sub := by
  induction h generalizing c with
  | nil => simp at ho
  | field h _ _ ihr =>
    rcases Expanded.occurs_cons.1 ho with ho | ho
    · obtain ⟨rfl, rfl, rfl, rfl⟩ := Expanded.occurs_field.1 ho
      exact ⟨_, occurs_cons.2 (.inl (occurs_field.2 ⟨rfl, rfl, rfl, rfl⟩)), h⟩
    · obtain ⟨below, hb, hop⟩ := ihr ho
      exact ⟨below, occurs_cons.2 (.inr hb), hop⟩
  | inline _ _ ih ihr =>
    rcases Expanded.occurs_cons.1 ho with ho | ho
    · obtain ⟨ha, c', rfl, hin⟩ := Expanded.occurs_fragment.1 ho
      obtain ⟨below, hb, hop⟩ := ih hin
      exact ⟨below, occurs_cons.2 (.inl (occurs_inline.2 ⟨ha, c', rfl, hb⟩)), hop⟩
    · obtain ⟨below, hb, hop⟩ := ihr ho
      exact ⟨below, occurs_cons.2 (.inr hb), hop⟩
  | spread hf _ _ ih ihr =>
    rcases Expanded.occurs_cons.1 ho with ho | ho
    · obtain ⟨ha, c', rfl, hin⟩ := Expanded.occurs_fragment.1 ho
      obtain ⟨below, hb, hop⟩ := ih hin
      exact ⟨below, occurs_cons.2 (.inl (occurs_spread.2 ⟨_, hf, ha _ rfl, c', rfl, hb⟩)), hop⟩
    · obtain ⟨below, hb, hop⟩ := ihr ho
      exact ⟨below, occurs_cons.2 (.inr hb), hop⟩
  | undefined _ _ ihr =>
    rcases Expanded.occurs_cons.1 ho with ho | ho
    · exact absurd ho Expanded.not_occurs_undefined
    · obtain ⟨below, hb, hop⟩ := ihr ho
      exact ⟨below, occurs_cons.2 (.inr hb), hop⟩

/-- Every field of the document's selections is among the opened ones. -/
theorem Opens.occurs_of {d : Document} {applies : String → Prop} {selections : List Selection}
    {expanded : List Expanded} (h : d.Opens selections expanded) {key name : String} {c : Bool}
    {below : List Selection} (ho : d.Occurs applies selections key name c below) :
    ∃ sub, Expanded.Occurs applies expanded key name c sub ∧ d.Opens below sub := by
  induction h generalizing c with
  | nil => simp at ho
  | field h _ _ ihr =>
    rcases occurs_cons.1 ho with ho | ho
    · obtain ⟨rfl, rfl, rfl, rfl⟩ := occurs_field.1 ho
      exact ⟨_, Expanded.occurs_cons.2 (.inl (Expanded.occurs_field.2 ⟨rfl, rfl, rfl, rfl⟩)), h⟩
    · obtain ⟨sub, hs, hop⟩ := ihr ho
      exact ⟨sub, Expanded.occurs_cons.2 (.inr hs), hop⟩
  | inline _ _ ih ihr =>
    rcases occurs_cons.1 ho with ho | ho
    · obtain ⟨ha, c', rfl, hin⟩ := occurs_inline.1 ho
      obtain ⟨sub, hs, hop⟩ := ih hin
      exact ⟨sub, Expanded.occurs_cons.2 (.inl (Expanded.occurs_fragment.2 ⟨ha, c', rfl, hs⟩)), hop⟩
    · obtain ⟨sub, hs, hop⟩ := ihr ho
      exact ⟨sub, Expanded.occurs_cons.2 (.inr hs), hop⟩
  | spread hf _ _ ih ihr =>
    rcases occurs_cons.1 ho with ho | ho
    · obtain ⟨f', hf', ha, c', rfl, hin⟩ := occurs_spread.1 ho
      obtain rfl : _ = f' := Option.some.inj (hf.symm.trans hf')
      obtain ⟨sub, hs, hop⟩ := ih hin
      refine ⟨sub, Expanded.occurs_cons.2 (.inl (Expanded.occurs_fragment.2 ⟨?_, c', rfl, hs⟩)), hop⟩
      rintro t ⟨⟩
      exact ha
    · obtain ⟨sub, hs, hop⟩ := ihr ho
      exact ⟨sub, Expanded.occurs_cons.2 (.inr hs), hop⟩
  | undefined hf _ ihr =>
    rcases occurs_cons.1 ho with ho | ho
    · obtain ⟨f, hf', -⟩ := occurs_spread.1 ho
      cases hf.symm.trans hf'
    · obtain ⟨sub, hs, hop⟩ := ihr ho
      exact ⟨sub, Expanded.occurs_cons.2 (.inr hs), hop⟩

/-! ## Cycles of fragments -/

/-- The fragment `a` spreads `b`, at some depth of its selections. -/
def Spreads (d : Document) (a b : String) : Prop := b ∈ d.spreadsIn a

/-- No fragment reaches itself. -/
def Acyclic (d : Document) : Prop := ∀ n, ¬ Relation.TransGen d.Spreads n n

/-- Nothing that `selections` reach reaches itself. -/
def AcyclicFrom (d : Document) (selections : List Selection) : Prop :=
  ∀ n ∈ Selection.spreadsOf selections, ∀ m, Relation.ReflTransGen d.Spreads n m →
    ¬ Relation.TransGen d.Spreads m m

theorem Acyclic.from {d : Document} (h : d.Acyclic) (selections : List Selection) :
    d.AcyclicFrom selections := fun _ _ m _ => h m

theorem find?_fragmentsOutside {d : Document} {names : List String} {name : String} (h : name ∉ names) :
    (d.fragmentsOutside names).find? (·.name = name) = d.fragment? name := by
  rw [fragmentsOutside, List.find?_filter, fragment?]
  congr 1
  funext f
  by_cases hf : f.name = name
  · simp [hf, h]
  · simp [hf]

theorem others_fragmentsOutside {d : Document} {names : List String} {name : String} :
    Fragment.others name (d.fragmentsOutside names) = d.fragmentsOutside (name :: names) := by
  simp only [Fragment.others, fragmentsOutside, List.filter_filter]
  apply List.filter_congr
  intro f _
  by_cases hf : f.name = name <;> simp [hf]

/-- With `name` open, too, nothing reached from its fragment is open already or reaches itself: else
`name` would reach itself. -/
theorem acyclicFrom_fragment {d : Document} {name : String} {f : Fragment} {opened : List String}
    (hf : d.fragment? name = some f)
    (hac : ∀ m, Relation.ReflTransGen d.Spreads name m → ¬ Relation.TransGen d.Spreads m m)
    (hout : ∀ m, Relation.ReflTransGen d.Spreads name m → m ∉ opened) :
    d.AcyclicFrom f.selections ∧
      ∀ n ∈ Selection.spreadsOf f.selections, ∀ m, Relation.ReflTransGen d.Spreads n m → m ∉ name :: opened := by
  have hedge : ∀ n ∈ Selection.spreadsOf f.selections, d.Spreads name n := fun n hn => by
    simpa [Spreads, spreadsIn, hf] using hn
  refine ⟨fun n hn m hm => hac m (.head (hedge n hn) hm), fun n hn m hm => ?_⟩
  rw [List.mem_cons, not_or]
  refine ⟨?_, hout m (.head (hedge n hn) hm)⟩
  rintro rfl
  exact hac m .refl (.head' (hedge n hn) hm)

/-- Where nothing reached from the selections is open already or reaches itself, all is opened. -/
theorem expandWith_opens {d : Document} {unopened : List Fragment} {selections : List Selection}
    {opened : List String} (hun : unopened = d.fragmentsOutside opened) (hac : d.AcyclicFrom selections)
    (hout : ∀ n ∈ Selection.spreadsOf selections, ∀ m, Relation.ReflTransGen d.Spreads n m → m ∉ opened) :
    d.Opens selections (d.expandWith unopened selections) := by
  induction unopened, selections using Document.expandWith.induct generalizing opened with
  | case1 unopened =>
    rw [expandWith]
    exact .nil
  | case2 unopened alias? name c sub rest ih ihr =>
    rw [expandWith]
    simp only [AcyclicFrom, Selection.spreadsOf, Selection.spreads, List.mem_append] at hac hout
    exact .field (ih hun (fun n hn => hac n (.inl hn)) fun n hn => hout n (.inl hn))
      (ihr hun (fun n hn => hac n (.inr hn)) fun n hn => hout n (.inr hn))
  | case3 unopened condition? c sub rest ih ihr =>
    rw [expandWith]
    simp only [AcyclicFrom, Selection.spreadsOf, Selection.spreads, List.mem_append] at hac hout
    exact .inline (ih hun (fun n hn => hac n (.inl hn)) fun n hn => hout n (.inl hn))
      (ihr hun (fun n hn => hac n (.inr hn)) fun n hn => hout n (.inr hn))
  | case4 unopened name c rest ih ihr =>
    subst hun
    simp only [AcyclicFrom, Selection.spreadsOf, Selection.spreads, List.mem_append, List.mem_singleton] at hac hout
    have hname : name ∉ opened := hout name (.inl rfl) name .refl
    have hfind := find?_fragmentsOutside (d := d) hname
    have hrest := ihr rfl (fun n hn => hac n (.inr hn)) fun n hn => hout n (.inr hn)
    rw [expandWith]
    split
    next f hf =>
      have hdef : d.fragment? name = some f := hfind.symm.trans hf
      obtain ⟨hac', hout'⟩ := acyclicFrom_fragment hdef (hac name (.inl rfl)) (hout name (.inl rfl))
      exact .spread hdef (ih f hf others_fragmentsOutside hac' hout') hrest
    next hf =>
      have hdef : d.fragment? name = none := hfind.symm.trans hf
      simpa only [hdef] using Opens.undefined (c := c) hdef hrest

/-- The expansion of selections that reach no cycle opens every spread. -/
theorem expand_opens {d : Document} {selections : List Selection} (h : d.AcyclicFrom selections) :
    d.Opens selections (d.expand selections) :=
  expandWith_opens (show d.fragments = d.fragmentsOutside [] by simp [fragmentsOutside]) h (by simp)

/-! ## Walks -/

/-- Every chain of spreads from `name` ends. -/
def Ends (d : Document) (name : String) : Prop := Acc (fun b a => d.Spreads a b) name

theorem Ends.irrefl {d : Document} {name m : String} (h : d.Ends name)
    (hm : Relation.ReflTransGen d.Spreads name m) : ¬ Relation.TransGen d.Spreads m m := by
  induction h generalizing m with
  | intro n _ ih =>
    rcases hm.cases_head with rfl | ⟨n', hn', hm⟩
    · intro hc
      obtain ⟨n', hn', hc⟩ := Relation.TransGen.head'_iff.1 hc
      exact ih n' hn' hc (.head' hn' hc)
    · exact ih n' hn' hm

section walk

variable {d : Document} {path done names : List String} {n : String}

theorem walk_done (h : n ∈ done) : d.walk path done (n :: names) = d.walk path done names := by
  rw [walk, if_pos h]

theorem walk_cyclic (h : n ∉ done) (hp : n ∈ path) :
    d.walk path done (n :: names) = .error (.fragmentCycle (path.dropWhile (· ≠ n) ++ [n])) := by
  rw [walk, if_neg h, dif_pos hp]

theorem walk_undefined (h : n ∉ done) (hp : n ∉ path) (hf : d.fragment? n = none) :
    d.walk path done (n :: names) = d.walk path done names := by
  rw [walk, if_neg h, dif_neg hp]
  split
  next => rfl
  next f hf' => cases hf.symm.trans hf'

theorem walk_defined (h : n ∉ done) (hp : n ∉ path) {f : Fragment} (hf : d.fragment? n = some f) :
    d.walk path done (n :: names) = (d.walk (path ++ [n]) done (Selection.spreadsOf f.selections)).bind
      fun done => d.walk path (done ++ [n]) names := by
  rw [walk, if_neg h, dif_neg hp]
  split
  next hf' => cases hf.symm.trans hf'
  next g hg =>
    obtain rfl : f = g := Option.some.inj (hf.symm.trans hg)
    cases d.walk (path ++ [n]) done (Selection.spreadsOf f.selections) <;> rfl

end walk

/-- A walk without an error has met only fragments from which every chain ends. -/
theorem walk_ends {d : Document} {path done names done' : List String}
    (h : d.walk path done names = .ok done') (hdone : ∀ n ∈ done, d.Ends n) :
    (∀ n ∈ done', d.Ends n) ∧ ∀ n ∈ names, d.Ends n := by
  induction path, done, names using Document.walk.induct d generalizing done' with
  | case1 path done =>
    simp only [walk, Except.ok.injEq] at h
    subst h
    exact ⟨hdone, by simp⟩
  | case2 path done name rest hin ih =>
    rw [walk_done hin] at h
    obtain ⟨h₁, h₂⟩ := ih h hdone
    exact ⟨h₁, List.forall_mem_cons.2 ⟨hdone name hin, h₂⟩⟩
  | case3 path done name rest hin hp =>
    rw [walk_cyclic hin hp] at h
    cases h
  | case4 path done name rest hin hp hf ih =>
    rw [walk_undefined hin hp hf] at h
    obtain ⟨h₁, h₂⟩ := ih h hdone
    refine ⟨h₁, List.forall_mem_cons.2 ⟨.intro _ fun b hb => ?_, h₂⟩⟩
    simp [Spreads, spreadsIn, hf] at hb
  | case5 path done name rest hin hp f hf e he ih =>
    rw [walk_defined hin hp hf, he] at h
    cases h
  | case6 path done name rest hin hp f hf done₁ he ih ihr =>
    rw [walk_defined hin hp hf, he] at h
    obtain ⟨h₁, hbelow⟩ := ih he hdone
    have hname : d.Ends name := .intro _ fun b hb => hbelow b (by simpa [Spreads, spreadsIn, hf] using hb)
    obtain ⟨h₂, h₃⟩ := ihr h (by
      intro n hn
      rcases List.mem_append.1 hn with hn | hn
      · exact h₁ n hn
      · exact List.mem_singleton.1 hn ▸ hname)
    exact ⟨h₂, List.forall_mem_cons.2 ⟨hname, h₃⟩⟩

/-- What is opened has an end. -/
theorem Opens.ends {d : Document} {selections : List Selection} {expanded : List Expanded}
    (h : d.Opens selections expanded) : ∀ n ∈ Selection.spreadsOf selections, d.Ends n := by
  induction h with
  | nil => simp [Selection.spreadsOf]
  | field _ _ ih ihr | inline _ _ ih ihr => exact List.forall_mem_append.2 ⟨ih, ihr⟩
  | spread hf _ _ ih ihr =>
    refine List.forall_mem_cons.2 ⟨.intro _ fun n hn => ih n ?_, ihr⟩
    simpa [Spreads, spreadsIn, hf] using hn
  | undefined hf _ ihr =>
    refine List.forall_mem_cons.2 ⟨.intro _ fun n hn => ?_, ihr⟩
    simp [Spreads, spreadsIn, hf] at hn

/-- A walk among fragments from which every chain ends has no error: only a fragment that reaches
itself is met on its own path. -/
theorem walk_of_ends {d : Document} {path done names : List String} (hends : ∀ n ∈ names, d.Ends n)
    (hpath : ∀ m ∈ path, ∀ n ∈ names, Relation.TransGen d.Spreads m n) : ∃ done', d.walk path done names = .ok done' := by
  induction path, done, names using Document.walk.induct d with
  | case1 path done => exact ⟨done, by rw [walk]⟩
  | case2 path done name rest hin ih =>
    rw [walk_done hin]
    exact ih (List.forall_mem_cons.1 hends).2 fun m hm => (List.forall_mem_cons.1 (hpath m hm)).2
  | case3 path done name rest hin hp =>
    exact absurd (hpath name hp name List.mem_cons_self) ((hends name List.mem_cons_self).irrefl .refl)
  | case4 path done name rest hin hp hf ih =>
    rw [walk_undefined hin hp hf]
    exact ih (List.forall_mem_cons.1 hends).2 fun m hm => (List.forall_mem_cons.1 (hpath m hm)).2
  | case5 path done name rest hin hp f hf e he ih =>
    have hedge : ∀ n ∈ Selection.spreadsOf f.selections, d.Spreads name n := fun n hn => by
      simpa [Spreads, spreadsIn, hf] using hn
    have hbelow : ∃ done', d.walk (path ++ [name]) done (Selection.spreadsOf f.selections) = .ok done' := by
      refine ih (fun n hn => (hends name List.mem_cons_self).inv (hedge n hn)) fun m hm n hn => ?_
      rcases List.mem_append.1 hm with hm | hm
      · exact (hpath m hm name List.mem_cons_self).tail (hedge n hn)
      · exact List.mem_singleton.1 hm ▸ .single (hedge n hn)
    obtain ⟨done', hdone'⟩ := hbelow
    cases he.symm.trans hdone'
  | case6 path done name rest hin hp f hf done₁ he ih ihr =>
    rw [walk_defined hin hp hf, he]
    exact ihr (List.forall_mem_cons.1 hends).2 fun m hm => (List.forall_mem_cons.1 (hpath m hm)).2

theorem checkCycles_of_ends {d : Document} {selections : List Selection}
    (h : ∀ n ∈ Selection.spreadsOf selections, d.Ends n) : d.checkCycles selections = .ok () := by
  have hpath : ∀ m ∈ ([] : List String), ∀ n ∈ Selection.spreadsOf selections, Relation.TransGen d.Spreads m n := by
    simp
  obtain ⟨done, hdone⟩ : ∃ done, d.walk [] [] (Selection.spreadsOf selections) = .ok done := walk_of_ends h hpath
  rw [checkCycles, hdone]
  rfl

theorem acyclicFrom_of_checkCycles {d : Document} {selections : List Selection}
    (h : d.checkCycles selections = .ok ()) : d.AcyclicFrom selections := by
  obtain ⟨done, hwalk, -⟩ := bind_eq_ok.1 h
  exact fun n hn m hm => ((walk_ends hwalk (by simp)).2 n hn).irrefl hm

end Document

end TypedQuery
