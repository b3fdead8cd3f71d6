/-
File systems by places. A place is where a path leads from the root, and a
program that runs in a directory names places by paths, relative ones from
there (`FileSystem.environment`). A directory stands if it cannot be taken for
a file and stays a directory whatever a program does (`Stands`). The trees of
files are a file system of this kind (`FileTree.fileSystem`), in which every
directory stands (`FileTree.stands`).
-/
import TypedQuery.Program
import TypedQuery.Proofs.Paths
import Mathlib.Data.List.Infix

namespace TypedQuery

open TypedQuery.Path

/-- Where a path leads: the steps from the root, and whether the path can only be a directory. -/
structure Place where
  steps : List String
  directory : Bool
deriving DecidableEq, Repr

/-- Files by their places, and the servers that answer requests. -/
structure FileSystem (σ : Type) where
  isFile : Place → StateM σ Bool
  read : Place → StateM σ (Except FileError String)
  makeDirectories : List String → StateM σ (Except FileError Unit)
  write : Place → String → StateM σ (Except FileError Unit)
  send : Http.Request → StateM σ (Option Http.Response)

namespace Path

/-- The steps of a path from the root, where relative paths begin in the directory `here`. -/
def stepsFrom (here : List String) (path : String) : List String :=
  if isAbsolute path then steps path else here ++ steps path

/-- The place of a path. The empty path leads nowhere. -/
def place? (here : List String) (path : String) : Option Place :=
  if path = "" then none else some ⟨stepsFrom here path, namesDirectory path⟩

end Path

namespace FileSystem

variable {σ : Type}

/-- What a program meets that runs in the directory `here`. -/
def environment (fs : FileSystem σ) (here : List String) : Environment (StateM σ) where
  isFile path := (place? here path).elim (pure false) fs.isFile
  read path := (place? here path).elim (pure (.error .notFound)) fs.read
  makeDirectories path := fs.makeDirectories (stepsFrom here path)
  write path text := (place? here path).elim (pure (.error .notFound)) (fs.write · text)
  send := fs.send

/-- In the worlds of `P`, `base` leads to a directory, and stays one whatever is done: it cannot be read or written as
a file, and making it or a directory on the way to it does nothing. -/
structure Stands (fs : FileSystem σ) (base : List String) (P : σ → Prop) : Prop where
  read : ∀ directory w, P w → ∃ e, (fs.read ⟨base, directory⟩).run w = (.error e, w)
  write : ∀ directory text w, P w → ∃ e, (fs.write ⟨base, directory⟩ text).run w = (.error e, w)
  makeDirectories : ∀ front w, front <+: base → P w → (fs.makeDirectories front).run w = (.ok (), w)
  keepsRead : ∀ place w, P w → P ((fs.read place).run w).2
  keepsWrite : ∀ place text w, P w → P ((fs.write place text).run w).2
  keepsMakeDirectories : ∀ front w, P w → P ((fs.makeDirectories front).run w).2
  keepsSend : ∀ request w, P w → P ((fs.send request).run w).2

end FileSystem

/-! ## Trees of files -/

/-- A path to a place, from the root. -/
def Place.path (place : Place) : String :=
  "/".intercalate place.steps ++ if place.directory then "/" else ""

/-- A step of a path into what has that name. -/
def Path.IsName (s : String) : Prop := s ≠ "" ∧ s ≠ "." ∧ s ≠ ".." ∧ '/' ∉ s.toList

instance (s : String) : Decidable (Path.IsName s) :=
  inferInstanceAs (Decidable (s ≠ "" ∧ s ≠ "." ∧ s ≠ ".." ∧ '/' ∉ s.toList))

theorem Path.steps_intercalate {names : List String} (h : ∀ s ∈ names, IsName s) :
    steps ("/".intercalate names) = names := by
  cases hnames : names with
  | nil => rfl
  | cons =>
    have hchars : ∀ cs ∈ names.map String.toList, '/' ∉ cs := by
      simpa using fun s hs => (h s hs).2.2.2
    have hkept : ∀ cs ∈ names.map String.toList, (!cs.isEmpty && cs ≠ ['.']) = true := by
      intro cs hcs
      obtain ⟨s, hs, rfl⟩ := List.mem_map.1 hcs
      have hdot : s.toList ≠ ['.'] := fun heq => (h s hs).2.1 (String.toList_injective heq)
      simp [(h s hs).1, hdot]
    have hslash : "/".toList = ['/'] := rfl
    rw [← hnames, steps, String.toList_intercalate, hslash, List.splitOn_intercalate '/' hchars (by simp [hnames]),
      List.filter_eq_self.2 hkept]
    simp

theorem Path.isAbsolute_intercalate {names : List String} (h : ∀ s ∈ names, IsName s) :
    isAbsolute ("/".intercalate names) = false := by
  cases names with
  | nil => rfl
  | cons s rest =>
    obtain ⟨hne, -, -, hslash⟩ := h s (by simp)
    obtain ⟨c, cs, hcs⟩ := List.exists_cons_of_ne_nil (show s.toList ≠ [] by simpa using hne)
    have hc : c ≠ '/' := by
      rintro rfl
      exact hslash (by simp [hcs])
    cases rest <;> simp [isAbsolute, hcs, hc]

theorem Place.steps_path (place : Place) (h : ∀ s ∈ place.steps, IsName s) : Path.steps place.path = place.steps := by
  rw [Place.path]
  split
  · have hslash := steps_slash ("/".intercalate place.steps) ""
    rw [String.append_empty, steps_intercalate h] at hslash
    exact hslash.trans (List.append_nil _)
  · rw [String.append_empty, steps_intercalate h]

namespace FileTree

variable {t t' : FileTree} {l : Location} {base names : List String} {path : String}

/-! ### Directories -/

/-- There is a directory at every place on the way. -/
def Leads (t : FileTree) (base : List String) : Prop := ∀ front, front <+: base → t.kind front = .directory

instance (t : FileTree) (base : List String) : Decidable (t.Leads base) :=
  decidable_of_iff (∀ front ∈ base.inits, t.kind front = .directory) (by simp only [List.mem_inits, Leads])

theorem kind_eq_directory : t.kind l = .directory ↔ l = [] ∨ l ∈ t.directories := by
  unfold kind
  split
  next h => simpa using h
  next h =>
    have hnot : ¬ (l = [] ∨ l ∈ t.directories) := by simpa using h
    simp only [hnot, iff_false]
    split <;> simp

theorem Leads.mono (hleads : t.Leads base) (h : t.directories ⊆ t'.directories) : t'.Leads base := fun front hfront =>
  kind_eq_directory.2 ((kind_eq_directory.1 (hleads front hfront)).imp_right fun hmem => h hmem)

theorem follow_names {here : Location} (hnames : ∀ s ∈ names, IsName s)
    (h : ∀ front, front <+: names → t.kind (here ++ front) = .directory) :
    t.follow here names = .ok (here ++ names) := by
  induction names generalizing here with
  | nil => rw [follow, List.append_nil]
  | cons s names ih =>
    have hhere := h [] List.nil_prefix
    rw [List.append_nil] at hhere
    rw [follow, hhere]
    simp only [(hnames s (by simp)).2.2.1, if_false]
    rw [ih (fun s' hs' => hnames s' (by simp [hs']))]
    · simp
    · intro front hfront
      rw [List.append_assoc, List.singleton_append]
      exact h _ (List.cons_prefix_cons.2 ⟨rfl, hfront⟩)

theorem locate_leads (hnames : ∀ s ∈ names, IsName s) (hleads : t.Leads names) (hpath : steps path = names) :
    t.locate path = .ok names ∨ t.locate path = .error .notFound := by
  rw [locate]
  split
  · exact .inr rfl
  · rw [hpath]
    exact .inl (follow_names hnames hleads)

/-! ### Operations -/

/-- What fails on directories fails on a path to one. -/
theorem locate_bind_fails {α : Type} {f : Location → Except FileError α} (hnames : ∀ s ∈ names, IsName s)
    (hleads : t.Leads names) (hpath : steps path = names) (hf : ∀ l, t.kind l = .directory → ∃ e, f l = .error e) :
    ∃ e, (t.locate path >>= f) = .error e := by
  rcases locate_leads hnames hleads hpath with h | h
  · rw [h]
    exact hf names (hleads names List.prefix_rfl)
  · rw [h]
    exact ⟨_, rfl⟩

theorem directories_put (text : String) : (t.put l text).directories = t.directories := by
  unfold put
  split <;> rfl

theorem directories_write {text : String} (h : t.write path text = .ok t') : t'.directories = t.directories := by
  unfold write at h
  simp only [bind, Except.bind] at h
  repeat' split at h
  all_goals cases h
  all_goals exact directories_put text

theorem directories_makeDirectory (h : t.makeDirectory path = .ok t') : t.directories ⊆ t'.directories := by
  unfold makeDirectory at h
  simp only [bind, Except.bind] at h
  repeat' split at h
  all_goals cases h
  exact List.subset_append_left _ _

theorem directories_ensureDirectory (h : t.ensureDirectory path = .ok t') : t.directories ⊆ t'.directories := by
  unfold ensureDirectory at h
  split at h
  next hmade =>
    cases h
    exact directories_makeDirectory hmade
  next =>
    split at h
    · cases h
      exact List.Subset.refl _
    · cases h

theorem directories_makeDirectories (path : String) (depth : Nat) :
    t.directories ⊆ (t.makeDirectories path depth).1.directories := by
  induction depth generalizing t path with
  | zero => exact List.Subset.refl _
  | succ depth ih =>
    rw [makeDirectories]
    split
    next hmade => exact directories_ensureDirectory hmade
    next =>
      split
      next => exact List.Subset.refl _
      next parent _ =>
        have hparent := ih (t := t) parent
        split
        · exact List.Subset.refl _
        · split
          next hmade =>
            rw [hmade] at hparent
            exact hparent
          next hmade =>
            rw [hmade] at hparent
            split
            next hlast => exact List.Subset.trans hparent (directories_ensureDirectory hlast)
            next => exact hparent
    next => exact List.Subset.refl _

/-- A directory that is there is not made again. -/
theorem makeDirectories_leads (hleads : t.Leads names) (hlocated : t.locate path = .ok names) (depth : Nat) :
    t.makeDirectories path (depth + 1) = (t, .ok ()) := by
  have hmade : t.makeDirectory path = .error .alreadyExists := by
    rw [makeDirectory, hlocated]
    simp only [bind, Except.bind, hleads names List.prefix_rfl]
  have hthere : t.isDirectory path = true := by
    rw [isDirectory, hlocated]
    simp [hleads names List.prefix_rfl]
  rw [makeDirectories, ensureDirectory, hmade]
  simp only [hthere, if_true]

/-! ### The file system -/

section runs

variable (send : Http.Request → Option Http.Response) (path : String) (w : FileTree × List Http.Request)

theorem run_write (text : String) : ((environment send).write path text).run w =
    match w.1.write path text with
    | .ok t => (.ok (), t, w.2)
    | .error e => (.error e, w) := by
  simp only [environment, StateT.run_bind]
  cases h : w.1.write path text <;> simp [h] <;> rfl

theorem run_makeDirectories : ((environment send).makeDirectories path).run w =
    ((w.1.makeDirectories path (path.length + 1)).2, (w.1.makeDirectories path (path.length + 1)).1, w.2) := rfl

end runs

/-- The tree as a file system with its root at the working directory of the tree. -/
def fileSystem (send : Http.Request → Option Http.Response) : FileSystem (FileTree × List Http.Request) where
  isFile place := (environment send).isFile place.path
  read place := (environment send).read place.path
  makeDirectories steps :=
    if steps = [] then pure (.ok ()) else (environment send).makeDirectories ("/".intercalate steps)
  write place text := (environment send).write place.path text
  send := (environment send).send

/-- Every directory of a tree stands. -/
theorem stands (send : Http.Request → Option Http.Response) (hnames : ∀ s ∈ names, IsName s) :
    (fileSystem send).Stands names fun w => w.1.Leads names where
  read directory w hw := by
    obtain ⟨e, he⟩ : ∃ e, w.1.read (Place.path ⟨names, directory⟩) = .error e :=
      locate_bind_fails hnames hw (Place.steps_path ⟨names, directory⟩ hnames) fun l hl => ⟨.isADirectory, by rw [hl]⟩
    exact ⟨e, congrArg (·, w) he⟩
  write directory text w hw := by
    obtain ⟨e, he⟩ : ∃ e, w.1.write (Place.path ⟨names, directory⟩) text = .error e :=
      locate_bind_fails hnames hw (Place.steps_path ⟨names, directory⟩ hnames) fun l hl => ⟨.isADirectory, by rw [hl]⟩
    refine ⟨e, ?_⟩
    simp only [fileSystem, run_write, he]
  makeDirectories front w hfront hw := by
    by_cases hnil : front = []
    · simp only [fileSystem, if_pos hnil]
      rfl
    · have hfrontNames : ∀ s ∈ front, IsName s := fun s hs => hnames s (hfront.subset hs)
      have hleads : w.1.Leads front := fun start hstart => hw start (hstart.trans hfront)
      have hpath : "/".intercalate front ≠ "" := fun hempty => hnil <| by
        rw [← steps_intercalate hfrontNames, hempty]
        rfl
      have hlocated : w.1.locate ("/".intercalate front) = .ok front := by
        rw [locate, if_neg (by simp [hpath, isAbsolute_intercalate hfrontNames]), steps_intercalate hfrontNames]
        exact follow_names hfrontNames hleads
      simp only [fileSystem, if_neg hnil, run_makeDirectories, makeDirectories_leads hleads hlocated]
  keepsRead place w hw := hw
  keepsWrite place text w hw := by
    simp only [fileSystem, run_write]
    split
    next hwritten => exact hw.mono fun l hl => (directories_write hwritten).symm ▸ hl
    next => exact hw
  keepsMakeDirectories front w hw := by
    simp only [fileSystem]
    split
    · exact hw
    · rw [run_makeDirectories]
      exact hw.mono (directories_makeDirectories _ _)
  keepsSend request w hw := hw

end FileTree

end TypedQuery
