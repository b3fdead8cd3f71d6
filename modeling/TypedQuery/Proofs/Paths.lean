/-
Paths as steps. What is behind a slash adds its steps to those in front of it
(`steps_slash`), and cutting meaningless characters off the end of a path keeps
its steps. So the directory of a path has all steps but the last
(`directory?_spec`), and a relative path taken relative to a directory has
the directory's steps and then its own (`steps_join`).
-/
import TypedQuery.File.Path
import Mathlib.Data.List.Basic
import Mathlib.Data.List.TakeWhile

namespace TypedQuery.Path

/-! ## Steps of characters -/

section chars

variable {cs xs ys : List Char} {c : Char}

/-- The steps of a path that is given by its characters. -/
def stepsOf (cs : List Char) : List String :=
  ((cs.splitOn '/').filter fun s => !s.isEmpty && s ≠ ['.']).map String.ofList

theorem steps_eq (path : String) : steps path = stepsOf path.toList := rfl

theorem stepsOf_slash : stepsOf (xs ++ '/' :: ys) = stepsOf xs ++ stepsOf ys := by
  rw [stepsOf, List.splitOn_append_cons_self, List.filter_append, List.map_append]
  rfl

@[simp] theorem stepsOf_nil : stepsOf [] = [] := rfl

@[simp] theorem stepsOf_dot : stepsOf ['.'] = [] := by decide

theorem stepsOf_slash_end : stepsOf (xs ++ ['/']) = stepsOf xs := by
  rw [stepsOf_slash, stepsOf_nil, List.append_nil]

theorem stepsOf_slash_dot : stepsOf (xs ++ ['/', '.']) = stepsOf xs := by
  rw [stepsOf_slash, stepsOf_dot, List.append_nil]

/-- Characters without a slash are one step, unless they mean nothing. -/
theorem stepsOf_name (h : '/' ∉ cs) (hne : cs ≠ []) (hdot : cs ≠ ['.']) : stepsOf cs = [String.ofList cs] := by
  rw [stepsOf, List.splitOn_eq_singleton (by simpa using h)]
  simp [hne, hdot]

/-! ## Ends of paths -/

/-- Nothing is cut off in front. -/
theorem trimEnd_getLast? : (trimEnd cs).getLast? = cs.getLast? := by
  fun_induction trimEnd cs with
  | case1 => rfl
  | case2 rest hne ih =>
    obtain ⟨c, rest, rfl⟩ := List.exists_cons_of_ne_nil (show rest ≠ [] from hne)
    rw [ih, List.getLast?_cons_cons]
  | case3 rest ih => rw [ih, List.getLast?_cons_cons]
  | case4 cs => rfl

/-- Nothing is cut off behind a name. -/
theorem trimEnd_name (hslash : c ≠ '/') (hdot : c ≠ '.') : trimEnd (c :: cs) = c :: cs := by
  rw [trimEnd.eq_def]
  split
  next heq => exact absurd (List.cons.inj heq).1 hslash
  next heq => exact absurd (List.cons.inj heq).1 hslash
  next heq => exact absurd (List.cons.inj heq).1 hdot
  next => rfl

theorem trimEnd_eq_nil : trimEnd cs = [] ↔ cs = [] := by
  rw [← List.getLast?_eq_none_iff, trimEnd_getLast?, List.getLast?_eq_none_iff]

theorem stepsOf_trimEnd : stepsOf (trimEnd cs).reverse = stepsOf cs.reverse := by
  fun_induction trimEnd cs with
  | case1 => rfl
  | case2 rest hne ih => rw [ih, List.reverse_cons, stepsOf_slash_end]
  | case3 rest ih =>
    rw [ih, List.reverse_cons, List.reverse_cons, List.reverse_cons, List.append_assoc, stepsOf_slash_end,
      List.singleton_append, stepsOf_slash_dot]
  | case4 cs => rfl

/-- What is left ends in a slash only if that is all, and never in a slash and a dot. -/
theorem trimEnd_head (hne : trimEnd cs ≠ ['/']) :
    (trimEnd cs).head? ≠ some '/' ∧ ¬ ['.', '/'] <+: trimEnd cs := by
  fun_induction trimEnd cs with
  | case1 => exact absurd rfl hne
  | case2 rest _ ih => exact ih hne
  | case3 rest ih => exact ih hne
  | case4 cs h₁ h₂ h₃ =>
    constructor
    · intro hhead
      obtain ⟨rest, rfl⟩ := List.head?_eq_some_iff.1 hhead
      exact h₂ rest rfl
    · rintro ⟨rest, rfl⟩
      exact h₃ rest rfl

end chars

/-! ## Directories -/

section directories

variable {cs : List Char}

theorem isAbsolute_reverse : isAbsolute (String.ofList cs.reverse) = (cs.getLast? = some '/' : Bool) := by
  simp [isAbsolute, List.head?_reverse]

theorem steps_trimmed : steps (String.ofList (trimEnd cs).reverse) = stepsOf cs.reverse := by
  rw [steps_eq, String.toList_ofList, stepsOf_trimEnd]

/-- What is in front of the last slash, from behind. -/
theorem dropWhile_cases (cs : List Char) :
    cs.dropWhile (· ≠ '/') = [] ∧ '/' ∉ cs ∨
      ∃ name more, cs = name ++ '/' :: more ∧ '/' ∉ name ∧ cs.dropWhile (· ≠ '/') = '/' :: more := by
  have hcut : cs.takeWhile (· ≠ '/') ++ cs.dropWhile (· ≠ '/') = cs := List.takeWhile_append_dropWhile
  have hname : '/' ∉ cs.takeWhile (· ≠ '/') := fun hmem => by simpa using List.mem_takeWhile_imp hmem
  have hrest := List.head?_dropWhile_not (· ≠ '/') cs
  cases h : cs.dropWhile (· ≠ '/') with
  | nil =>
    rw [h, List.append_nil] at hcut
    exact .inl ⟨rfl, hcut ▸ hname⟩
  | cons c more =>
    rw [h] at hcut hrest
    obtain rfl : c = '/' := by simpa using hrest
    exact .inr ⟨_, more, hcut.symm, hname, rfl⟩

/-- A path is in a directory that has all its steps but the last, unless it has at most one step from the working
directory. -/
theorem directory?_spec (path : String) :
    (directory? path = none ∧ (steps path = [] ∨ isAbsolute path = false ∧ ∃ s, steps path = [s])) ∨
      ∃ q s, directory? path = some q ∧ q ≠ "" ∧ isAbsolute q = isAbsolute path ∧ steps path = steps q ++ [s] := by
  obtain ⟨rcs, rfl⟩ : ∃ rcs, path = String.ofList (List.reverse rcs) := ⟨path.toList.reverse, by simp⟩
  have hform := @trimEnd_head rcs
  have hsteps : steps (String.ofList rcs.reverse) = stepsOf (trimEnd rcs).reverse := by
    rw [stepsOf_trimEnd, steps_eq, String.toList_ofList]
  rw [directory?, parent?, String.toList_ofList, List.reverse_reverse, hsteps, isAbsolute_reverse,
    ← trimEnd_getLast?]
  -- from here on `cs` is the path from behind, without what means nothing at its end
  generalize trimEnd rcs = cs at hform
  split
  next hroot =>
    rw [Bool.or_eq_true, List.isEmpty_iff, decide_eq_true_eq] at hroot
    refine .inl ⟨rfl, .inl ?_⟩
    rcases hroot with rfl | rfl <;> decide
  next hroot =>
    simp only [Bool.or_eq_true, List.isEmpty_iff, decide_eq_true_eq, not_or] at hroot
    obtain ⟨hslash, hdot⟩ := hform hroot.2
    rcases dropWhile_cases cs with ⟨hdrop, hname⟩ | ⟨name, more, rfl, hname, hdrop⟩
    · rw [hdrop]
      refine .inl ⟨by rw [trimEnd.eq_def]; rfl, ?_⟩
      by_cases hsame : cs = ['.']
      · exact .inl (by rw [hsame]; decide)
      · refine .inr ⟨?_, _, stepsOf_name (by simpa using hname) (by simpa using hroot.1) (by simpa using hsame)⟩
        simpa using fun hlast => hname (List.mem_of_getLast? hlast)
    · rw [hdrop]
      have hlast : (trimEnd ('/' :: more)).getLast? = (name ++ '/' :: more).getLast? := by
        rw [trimEnd_getLast?, List.getLast?_append_cons]
      have hparent : String.ofList (trimEnd ('/' :: more)).reverse ≠ "" := by
        simp [trimEnd_eq_nil]
      have hstep : stepsOf name.reverse = [String.ofList name.reverse] := by
        refine stepsOf_name (by simpa using hname) ?_ ?_
        · rintro hnil
          rw [List.reverse_eq_nil_iff] at hnil
          exact hslash (by rw [hnil]; rfl)
        · rintro hsame
          rw [List.reverse_eq_iff] at hsame
          exact hdot ⟨more, by rw [hsame]; rfl⟩
      refine .inr ⟨_, String.ofList name.reverse, Option.filter_eq_some_iff.2 ⟨rfl, by simpa using hparent⟩,
        hparent, ?_, ?_⟩
      · rw [isAbsolute_reverse, hlast]
      · rw [List.reverse_append, List.reverse_cons, List.append_assoc, List.singleton_append, stepsOf_slash, hstep,
          steps_trimmed, List.reverse_cons, stepsOf_slash_end]

end directories

/-! ## Joining -/

section joining

variable {directory path : String}

theorem steps_slash (directory path : String) : steps (directory ++ "/" ++ path) = steps directory ++ steps path := by
  rw [steps_eq, String.toList_append, String.toList_append, List.append_assoc]
  exact stepsOf_slash

theorem isAbsolute_append (hdirectory : directory ≠ "") : isAbsolute (directory ++ path) = isAbsolute directory := by
  obtain ⟨c, cs, hcs⟩ := List.exists_cons_of_ne_nil (show directory.toList ≠ [] by simpa using hdirectory)
  simp [isAbsolute, hcs]

/-- A relative path taken relative to a directory stands behind a slash. -/
theorem join_relative (hdirectory : directory ≠ "") (hpath : isAbsolute path = false) :
    ∃ front, join directory path = front ++ "/" ++ path ∧ steps front = steps directory ∧
      isAbsolute (front ++ "/") = isAbsolute directory := by
  rw [join, if_neg (by simp [hdirectory, hpath])]
  split
  next hslash =>
    obtain ⟨cs, hcs⟩ := List.getLast?_eq_some_iff.1 hslash
    have hfront : String.ofList cs ++ "/" = directory := String.toList_injective (by simp [hcs])
    refine ⟨String.ofList cs, by rw [hfront], ?_, by rw [hfront]⟩
    rw [steps_eq, steps_eq, hcs, String.toList_ofList, stepsOf_slash_end]
  next => exact ⟨directory, rfl, rfl, isAbsolute_append hdirectory⟩

theorem join_absolute (hpath : isAbsolute path = true) : join directory path = path := by
  simp [join, hpath]

theorem steps_join (hdirectory : directory ≠ "") (hpath : isAbsolute path = false) :
    steps (join directory path) = steps directory ++ steps path := by
  obtain ⟨front, hjoin, hsteps, -⟩ := join_relative hdirectory hpath
  rw [hjoin, steps_slash, hsteps]

theorem isAbsolute_join (hdirectory : directory ≠ "") (hpath : isAbsolute path = false) :
    isAbsolute (join directory path) = isAbsolute directory := by
  obtain ⟨front, hjoin, -, habsolute⟩ := join_relative hdirectory hpath
  rw [hjoin, isAbsolute_append (by simp), habsolute]

theorem namesDirectory_iff :
    namesDirectory path = true ↔ path.toList.reverse.head? = some '/' ∨ ['.', '/'] <+: path.toList.reverse := by
  unfold namesDirectory
  split
  next heq => simp [heq]
  next heq => simp [heq]
  next cs hslash hdot =>
    simp only [Bool.false_eq_true, false_iff, not_or]
    constructor
    · intro hhead
      obtain ⟨rest, hrest⟩ := List.head?_eq_some_iff.1 hhead
      exact hslash rest hrest
    · rintro ⟨rest, hrest⟩
      exact hdot rest hrest.symm

/-- A path that has a step says itself whether it can only be a directory. -/
theorem namesDirectory_join (hdirectory : directory ≠ "") (hpath : isAbsolute path = false) (hsteps : steps path ≠ []) :
    namesDirectory (join directory path) = namesDirectory path := by
  obtain ⟨front, hjoin, -, -⟩ := join_relative hdirectory hpath
  have hreverse : (front ++ "/" ++ path).toList.reverse = path.toList.reverse ++ '/' :: front.toList.reverse := by simp
  have hchars : stepsOf path.toList.reverse.reverse ≠ [] := by rwa [List.reverse_reverse, ← steps_eq]
  rw [hjoin, Bool.eq_iff_iff, namesDirectory_iff, namesDirectory_iff, hreverse]
  generalize path.toList.reverse = cs at hchars
  match cs with
  | [] => exact absurd rfl hchars
  | [c] =>
    have hdot : c ≠ '.' := by
      rintro rfl
      exact hchars rfl
    simp [hdot.symm]
  | c :: d :: more => simp

/-- A path behind a directory is not empty. -/
theorem join_ne (hdirectory : directory ≠ "") (hpath : isAbsolute path = false) {name : String}
    (hname : '/' ∉ name.toList) : join directory path ≠ name := by
  obtain ⟨front, hjoin, -, -⟩ := join_relative hdirectory hpath
  rw [hjoin]
  rintro rfl
  simp at hname

/-- What is behind a directory is in a directory, unless it ends in a slash or a dot. -/
theorem directory?_join_ne_none (hdirectory : directory ≠ "") (hpath : isAbsolute path = false) {c : Char}
    (hlast : path.toList.getLast? = some c) (hslash : c ≠ '/') (hdot : c ≠ '.') :
    directory? (join directory path) ≠ none := by
  obtain ⟨front, hjoin, -, -⟩ := join_relative hdirectory hpath
  obtain ⟨cs, hcs⟩ := List.getLast?_eq_some_iff.1 hlast
  have hreverse : (front ++ "/" ++ path).toList.reverse = c :: (cs.reverse ++ '/' :: front.toList.reverse) := by
    simp [hcs]
  rw [hjoin, directory?, parent?, hreverse, trimEnd_name hslash hdot, if_neg (by simp [hslash])]
  rcases dropWhile_cases (c :: (cs.reverse ++ '/' :: front.toList.reverse)) with ⟨-, hnone⟩ | ⟨-, more, -, -, hdrop⟩
  · exact absurd (by simp) hnone
  · rw [hdrop, Option.filter_some_pos (by simp [trimEnd_eq_nil])]
    exact Option.some_ne_none _

/-- A name behind a directory is in that directory. -/
theorem directory?_join (hdirectory : directory ≠ "") (hpath : isAbsolute path = false) {s : String}
    (hsteps : steps path = [s]) {c : Char} (hlast : path.toList.getLast? = some c) (hslash : c ≠ '/') (hdot : c ≠ '.') :
    ∃ q, directory? (join directory path) = some q ∧ q ≠ "" ∧ isAbsolute q = isAbsolute directory ∧
      steps q = steps directory := by
  have hsome := directory?_join_ne_none hdirectory hpath hlast hslash hdot
  obtain ⟨q, s', hq, hne, habsolute, hcut⟩ := (directory?_spec (join directory path)).resolve_left (hsome ·.1)
  rw [steps_join hdirectory hpath, hsteps] at hcut
  exact ⟨q, hq, hne, habsolute.trans (isAbsolute_join hdirectory hpath), (List.append_inj' hcut rfl).1.symm⟩

end joining

end TypedQuery.Path
