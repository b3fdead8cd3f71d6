/-
Cycles of fragments are found exactly. The walk keeps its way from the start:
distinct fragments of the document, each of which spreads the next and the
last of which spreads whatever is met next (`OnWay`). A name that is met on
its own way therefore closes a cycle, which is the path that is reported
(`IsCycle`), and a walk without an error leaves no fragment behind that
reaches itself, so an error is there exactly if there is one
(`checkCycles_exact`).
-/
import TypedQuery.Proofs.Reach
import Mathlib.Data.List.Chain

namespace TypedQuery

namespace Document

/-- `path` leads from a fragment back to itself, along spreads and through no fragment twice, and the
selections reach it. -/
structure IsCycle (d : Document) (selections : List Selection) (path : List String) : Prop where
  closed : ∃ n inner, path = n :: inner ++ [n]
  spreads : path.IsChain d.Spreads
  distinct : path.dropLast.Nodup
  defined : ∀ n ∈ path, ∃ f, d.fragment? n = some f
  reached : ∀ n ∈ path, d.Reaches selections n

/-- A walk stands at the end of `path`, with `names` still to meet there. -/
structure OnWay (d : Document) (selections : List Selection) (path names : List String) : Prop where
  spreads : path.IsChain d.Spreads
  distinct : path.Nodup
  defined : ∀ n ∈ path, ∃ f, d.fragment? n = some f
  reached : ∀ n ∈ path ++ names, d.Reaches selections n
  next : ∀ m ∈ path.getLast?, ∀ n ∈ names, d.Spreads m n

variable {d : Document} {selections : List Selection} {path done names : List String} {n : String}

theorem onWay_start : d.OnWay selections [] (Selection.spreadsOf selections) where
  spreads := .nil
  distinct := .nil
  defined := by simp
  reached := fun n hn => ⟨n, hn, .refl⟩
  next := by simp

theorem OnWay.tail (h : d.OnWay selections path (n :: names)) : d.OnWay selections path names :=
  { h with
    reached := fun m hm => h.reached m (by simp only [List.mem_append, List.mem_cons] at hm ⊢; tauto)
    next := fun m hm a ha => h.next m hm a (List.mem_cons_of_mem _ ha) }

/-- The way to a name that is met. -/
theorem OnWay.to (h : d.OnWay selections path (n :: names)) : (path ++ [n]).IsChain d.Spreads :=
  List.isChain_append.2 ⟨h.spreads, .singleton n, by simpa using fun m hm => h.next m hm n List.mem_cons_self⟩

/-- A fragment that is met for the first time becomes the end of the way. -/
theorem OnWay.below {f : Fragment} (h : d.OnWay selections path (n :: names)) (hp : n ∉ path)
    (hf : d.fragment? n = some f) : d.OnWay selections (path ++ [n]) (Selection.spreadsOf f.selections) := by
  have hn : d.Reaches selections n := h.reached n (by simp)
  refine ⟨h.to, h.distinct.append (List.nodup_singleton n) (by simpa using hp), fun m hm => ?_, fun m hm => ?_, ?_⟩
  · rcases List.mem_append.1 hm with hm | hm
    · exact h.defined m hm
    · exact List.mem_singleton.1 hm ▸ ⟨f, hf⟩
  · rw [List.append_assoc, List.mem_append] at hm
    rcases hm with hm | hm
    · exact h.reached m (List.mem_append_left _ hm)
    · rcases List.mem_cons.1 hm with rfl | hm
      · exact hn
      · exact hn.tail (by rwa [Spreads, spreadsIn_eq hf])
  · simp [Spreads, spreadsIn_eq hf]

/-- A name met on its own way closes a cycle. -/
theorem OnWay.cycle (h : d.OnWay selections path (n :: names)) (hp : n ∈ path) :
    d.IsCycle selections (path.dropWhile (· ≠ n) ++ [n]) := by
  obtain ⟨before, inner, rfl, hbefore⟩ := List.eq_append_cons_of_mem hp
  have hcycle : (before ++ n :: inner).dropWhile (· ≠ n) = n :: inner := by
    rw [List.dropWhile_append_of_pos (fun m hm => by simpa using (ne_of_mem_of_not_mem hm hbefore))]
    simp
  rw [hcycle]
  have hmem : ∀ m ∈ n :: inner ++ [n], m ∈ before ++ n :: inner := by simp; tauto
  refine ⟨⟨n, inner, rfl⟩, ?_, ?_, fun m hm => h.defined m (hmem m hm), fun m hm => ?_⟩
  · have hto := h.to
    rw [List.append_assoc] at hto
    exact hto.right_of_append
  · rw [List.dropLast_concat]
    exact h.distinct.of_append_right
  · exact h.reached m (List.mem_append_left _ (hmem m hm))

/-- A walk only fails at a cycle, and reports it. -/
theorem OnWay.isCycle {e : GenerationError} (hway : d.OnWay selections path names)
    (h : d.walk path done names = .error e) : ∃ cycle, e = .fragmentCycle cycle ∧ d.IsCycle selections cycle := by
  induction path, done, names using Document.walk.induct d with
  | case1 path done => simp [walk] at h
  | case2 path done name rest hin ih =>
    rw [walk_done hin] at h
    exact ih hway.tail h
  | case3 path done name rest hin hp =>
    rw [walk_cyclic hin hp, Except.error.injEq] at h
    exact ⟨_, h.symm, hway.cycle hp⟩
  | case4 path done name rest hin hp hf ih =>
    rw [walk_undefined hin hp hf] at h
    exact ih hway.tail h
  | case5 path done name rest hin hp f hf e' he ih =>
    rw [walk_defined hin hp hf, he] at h
    exact ih (hway.below hp hf) (he.trans h)
  | case6 path done name rest hin hp f hf done₁ he ih ihr =>
    rw [walk_defined hin hp hf, he] at h
    exact ihr hway.tail h

theorem checkCycles_error {e : GenerationError} :
    d.checkCycles selections = .error e ↔ d.walk [] [] (Selection.spreadsOf selections) = .error e := by
  rw [checkCycles]
  cases d.walk [] [] (Selection.spreadsOf selections) <;> simp [bind, Except.bind]

/-- What starts a cycle reaches itself. -/
theorem IsCycle.transGen (h : d.IsCycle selections path) : ∃ n ∈ path, Relation.TransGen d.Spreads n n := by
  obtain ⟨n, inner, rfl⟩ := h.closed
  have hpairs : (n :: inner ++ [n]).Pairwise (Relation.TransGen d.Spreads) :=
    (h.spreads.imp fun _ _ => .single).pairwise
  exact ⟨n, by simp, List.rel_of_pairwise_cons hpairs (by simp)⟩

/-- **Cycles are found exactly**: selections are refused if and only if they reach a fragment that
reaches itself, and what is then reported is such a cycle. -/
theorem checkCycles_exact :
    ((∃ e, d.checkCycles selections = .error e) ↔
      ∃ n f, d.fragment? n = some f ∧ d.Reaches selections n ∧ Relation.TransGen d.Spreads n n) ∧
    ∀ e, d.checkCycles selections = .error e →
      ∃ path, e = .fragmentCycle path ∧ d.IsCycle selections path := by
  have hreport : ∀ e, d.checkCycles selections = .error e →
      ∃ path, e = .fragmentCycle path ∧ d.IsCycle selections path :=
    fun e h => onWay_start.isCycle (checkCycles_error.1 h)
  refine ⟨⟨?_, ?_⟩, hreport⟩
  · rintro ⟨e, h⟩
    obtain ⟨path, -, hcycle⟩ := hreport e h
    obtain ⟨n, hn, hself⟩ := hcycle.transGen
    obtain ⟨f, hf⟩ := hcycle.defined n hn
    exact ⟨n, f, hf, hcycle.reached n hn, hself⟩
  · rintro ⟨n, f, hf, ⟨m, hm, hmn⟩, hself⟩
    cases hcheck : d.checkCycles selections with
    | error e => exact ⟨e, rfl⟩
    | ok => exact absurd hself (acyclicFrom_of_checkCycles hcheck m hm n hmn)

/-! Two fragments spread each other below fields, and a third one leads to them. -/

def friends : Document where
  operations := []
  fragments := [
    ⟨"Profile", "User", [.spread "Missing" false, .field none "friends" false [.spread "Friend" false]], ""⟩,
    ⟨"Friend", "User", [.inline none false [.field none "group" false [.spread "Group" false]]], ""⟩,
    ⟨"Group", "Group", [.field none "members" false [.spread "Friend" false]], ""⟩]

def profileSelections : List Selection := [.field none "me" false [.spread "Profile" false]]

theorem friends_cycle :
    (∃ e, friends.checkCycles profileSelections = .error e) ∧
    friends.IsCycle profileSelections ["Friend", "Group", "Friend"] := by
  have hcheck : friends.checkCycles profileSelections = .error (.fragmentCycle ["Friend", "Group", "Friend"]) := by
    cbv
  obtain ⟨path, heq, hcycle⟩ := checkCycles_exact.2 _ hcheck
  cases heq
  exact ⟨⟨_, hcheck⟩, hcycle⟩

end Document

end TypedQuery
