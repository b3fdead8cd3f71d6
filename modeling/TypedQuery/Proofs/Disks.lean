/-
What an environment may do to the files of a world. A disk says what is at each
place and where paths lead. Reading and sending leave it alone, making a
directory at most makes those that are missing on the way to it, and writing a
file either does nothing or stores the whole text (`Environment.OnDisk`): no
more than that is assumed of a system. The environment on a tree of files is of
this kind (`FileTree.environment_onDisk`).
-/
import TypedQuery.Proofs.FileSystems
import Mathlib.Logic.Relation

namespace TypedQuery

open FileTree (Kind)

/-! ## Disks -/

/-- The directory `inner` is the one that `path` is in, or one that this is in. -/
def Path.Encloses (inner path : String) : Prop := Relation.TransGen (fun a b => Path.parent? a = some b) path inner

/-- What is at each place, and the place that a path leads to. -/
structure Disk (κ : Type) where
  kind : κ → Kind
  locate? : String → Option κ

namespace Disk

variable {κ : Type} {before middle after : Disk κ}

/-- The text of the file at a place. -/
def text? (disk : Disk κ) (place : κ) : Option String :=
  match disk.kind place with
  | .file text => some text
  | _ => none

/-- Nothing has changed but that directories were made, at places where nothing was and to which paths with `way`
lead. -/
def MakesWay (way : String → Prop) (before after : Disk κ) : Prop :=
  ∀ place, after.kind place = before.kind place ∨
    before.kind place = .absent ∧ after.kind place = .directory ∧ ∃ path, way path ∧ after.locate? path = some place

/-- A file with the text is at the place, and nothing has changed elsewhere. -/
structure Stores (place : κ) (text : String) (before after : Disk κ) : Prop where
  stored : after.kind place = .file text
  others : ∀ other, other ≠ place → after.kind other = before.kind other

theorem makesWay_refl (way : String → Prop) (disk : Disk κ) : MakesWay way disk disk := fun _ => .inl rfl

theorem MakesWay.mono {way way' : String → Prop} (h : MakesWay way before after) (himp : ∀ path, way path → way' path) :
    MakesWay way' before after := fun place => by
  rcases h place with hsame | ⟨habsent, hmade, path, hway, hpath⟩
  · exact .inl hsame
  · exact .inr ⟨habsent, hmade, path, himp path hway, hpath⟩

theorem MakesWay.directory {way : String → Prop} (h : MakesWay way before after) {place : κ}
    (hthere : before.kind place = .directory) : after.kind place = .directory := by
  rcases h place with hsame | ⟨-, hmade, -⟩
  · rw [hsame, hthere]
  · exact hmade

/-- Where directories are made no file changes. -/
theorem MakesWay.text? {way : String → Prop} (h : MakesWay way before after) (place : κ) :
    after.text? place = before.text? place := by
  unfold Disk.text?
  rcases h place with hsame | ⟨habsent, hmade, -⟩
  · rw [hsame]
  · rw [habsent, hmade]

theorem MakesWay.trans {way : String → Prop} (h : MakesWay way before middle) (h' : MakesWay way middle after)
    (hkept : ∀ path place, middle.locate? path = some place → after.locate? path = some place) :
    MakesWay way before after := fun place => by
  rcases h place with hsame | ⟨habsent, hmade, path, hway, hpath⟩
  · rw [← hsame]
    exact h' place
  · exact .inr ⟨habsent, h'.directory hmade, path, hway, hkept path place hpath⟩

theorem Stores.text? {place : κ} {text : String} (h : Stores place text before after) :
    after.text? place = some text ∧ ∀ other, other ≠ place → after.text? other = before.text? other := by
  unfold Disk.text?
  refine ⟨by rw [h.stored], fun other hne => ?_⟩
  rw [h.others other hne]

end Disk

/-- What is assumed of an environment, seen through the disk of each world: only making directories and writing change
the disk, and writing stores a whole text or does nothing. -/
structure Environment.OnDisk {σ κ : Type} (env : Environment (StateM σ)) (disk : σ → Disk κ) : Prop where
  isFile : ∀ path w, disk ((env.isFile path).run w).2 = disk w
  read : ∀ path w, disk ((env.read path).run w).2 = disk w
  send : ∀ request w, disk ((env.send request).run w).2 = disk w
  makeDirectories : ∀ path w, (disk w).MakesWay (fun p => p = path ∨ Path.Encloses p path)
    (disk ((env.makeDirectories path).run w).2)
  write : ∀ path text w,
    (∃ e, ((env.write path text).run w).1 = .error e ∧ disk ((env.write path text).run w).2 = disk w) ∨
    ((env.write path text).run w).1 = .ok () ∧ ∃ place,
      (disk ((env.write path text).run w).2).locate? path = some place ∧
      Disk.Stores place text (disk w) (disk ((env.write path text).run w).2)

/-! ## Trees of files -/

namespace FileTree

variable {t t' : FileTree} {l : Location} {path : String}

/-- A tree as a disk. -/
def disk (t : FileTree) : Disk Location := ⟨t.kind, fun path => (t.locate path).toOption⟩

theorem locate?_eq_some : t.disk.locate? path = some l ↔ t.locate path = .ok l := by
  simp only [disk]
  cases t.locate path <;> simp [Except.toOption]

/-- Steps that lead somewhere still do after directories were made. -/
theorem follow_kept {here : Location} {steps : List String}
    (hkept : ∀ l, t.kind l = .directory → t'.kind l = .directory) (h : t.follow here steps = .ok l) :
    t'.follow here steps = .ok l := by
  induction steps generalizing here with
  | nil => exact h
  | cons step steps ih =>
    rw [follow] at h ⊢
    cases hkind : t.kind here with
    | file | absent => simp [hkind] at h
    | directory =>
      simp only [hkind, hkept here hkind] at h ⊢
      split at h
      next hback =>
        rw [if_pos hback]
        split at h
        · cases h
        next hinside =>
          rw [if_neg hinside]
          exact ih h
      next hstep =>
        rw [if_neg hstep]
        exact ih h

theorem locate_kept (hkept : ∀ l, t.kind l = .directory → t'.kind l = .directory) (h : t.locate path = .ok l) :
    t'.locate path = .ok l := by
  unfold locate at h ⊢
  split at h
  · cases h
  next hpath =>
    rw [if_neg hpath]
    exact follow_kept hkept h

/-! ### Writing -/

theorem find?_put (k : Location) (text : String) :
    (t.put l text).files.find? (·.1 = k) = if k = l then some (l, text) else t.files.find? (·.1 = k) := by
  unfold put
  by_cases hthere : t.files.any (·.1 = l) = true
  · have hkeys : ((fun f : Location × String => decide (f.1 = k)) ∘
        fun f : Location × String => if f.1 = l then (f.1, text) else (f.1, f.2)) = fun f => decide (f.1 = k) := by
      funext f
      by_cases hf : f.1 = l <;> simp [hf]
    rw [if_pos hthere, List.find?_map, hkeys]
    cases hfound : t.files.find? (·.1 = k) with
    | none =>
      have hne : k ≠ l := by
        rintro rfl
        rw [List.any_eq_true] at hthere
        obtain ⟨f, hf, hname⟩ := hthere
        exact List.find?_eq_none.1 hfound f hf hname
      simp [hne]
    | some f =>
      obtain rfl : f.1 = k := by simpa using List.find?_some hfound
      by_cases hk : f.1 = l <;> simp [hk]
  · have hnone : k = l → t.files.find? (·.1 = k) = none := by
      rintro rfl
      rw [List.find?_eq_none]
      exact fun f hf hname => hthere (List.any_eq_true.2 ⟨f, hf, hname⟩)
    rw [if_neg hthere, List.find?_append]
    by_cases hk : k = l
    · rw [hnone hk, if_pos hk]
      simp [hk]
    · simp [hk, Ne.symm hk]

theorem kind_put (hnot : t.kind l ≠ .directory) (text : String) (k : Location) :
    (t.put l text).kind k = if k = l then .file text else t.kind k := by
  have hl : ¬ (l = [] ∨ l ∈ t.directories) := mt kind_eq_directory.2 hnot
  unfold kind
  rw [directories_put, find?_put]
  by_cases hk : k = l
  · subst hk
    simp [hl]
  · simp [hk]

theorem write_ok {text : String} (h : t.write path text = .ok t') :
    ∃ l, t.locate path = .ok l ∧ t.kind l ≠ .directory ∧ t' = t.put l text := by
  unfold write at h
  cases hlocated : t.locate path with
  | error e => simp [hlocated, bind, Except.bind] at h
  | ok l =>
    simp only [hlocated, bind, Except.bind] at h
    cases hkind : t.kind l <;> simp only [hkind] at h
    case directory => cases h
    all_goals
      split at h
      · cases h
      · cases h
        exact ⟨l, rfl, by simp [hkind], rfl⟩

/-- A text that is written is at the place of its path, and nothing else has changed. -/
theorem write_stores {text : String} (h : t.write path text = .ok t') :
    ∃ l, t'.disk.locate? path = some l ∧ Disk.Stores l text t.disk t'.disk := by
  obtain ⟨l, hlocated, hnot, rfl⟩ := write_ok h
  have hkept : ∀ k, t.kind k = .directory → (t.put l text).kind k = .directory := by
    intro k hk
    rw [kind_put hnot, if_neg, hk]
    rintro rfl
    exact hnot hk
  refine ⟨l, locate?_eq_some.2 (locate_kept hkept hlocated), ?_, fun k hk => ?_⟩
  · simp [disk, kind_put hnot]
  · simp [disk, kind_put hnot, hk]

/-! ### Making directories -/

theorem kind_add {k : Location} (directories : t'.directories = t.directories ++ [l]) (files : t'.files = t.files) :
    t'.kind k = if k = l then .directory else t.kind k := by
  unfold kind
  rw [directories, files]
  by_cases hk : k = l <;> simp [hk]

theorem makeDirectory_makesWay (h : t.makeDirectory path = .ok t') : t.disk.MakesWay (· = path) t'.disk := by
  unfold makeDirectory at h
  cases hlocated : t.locate path with
  | error e => simp [hlocated, bind, Except.bind] at h
  | ok l =>
    simp only [hlocated, bind, Except.bind] at h
    cases hkind : t.kind l <;> simp only [hkind] at h <;> cases h
    have hadded : ∀ k, FileTree.kind { t with directories := t.directories ++ [l] } k =
        if k = l then .directory else t.kind k := fun k => kind_add rfl rfl
    have hkept : ∀ k, t.kind k = .directory →
        FileTree.kind { t with directories := t.directories ++ [l] } k = .directory := by
      intro k hk
      rw [hadded, hk, ite_self]
    intro k
    by_cases hk : k = l
    · subst hk
      exact .inr ⟨hkind, by simp [disk, hadded], path, rfl, locate?_eq_some.2 (locate_kept hkept hlocated)⟩
    · exact .inl (by simp [disk, hadded, hk])

theorem ensureDirectory_makesWay (h : t.ensureDirectory path = .ok t') : t.disk.MakesWay (· = path) t'.disk := by
  unfold ensureDirectory at h
  split at h
  next hmade =>
    cases h
    exact makeDirectory_makesWay hmade
  next =>
    split at h
    · cases h
      exact Disk.makesWay_refl _ _
    · cases h

theorem makesWay_trans {t₁ t₂ : FileTree} {way : String → Prop} (h : t.disk.MakesWay way t₁.disk)
    (h' : t₁.disk.MakesWay way t₂.disk) : t.disk.MakesWay way t₂.disk :=
  h.trans h' fun _ _ hl => locate?_eq_some.2 (locate_kept (fun _ => h'.directory) (locate?_eq_some.1 hl))

/-- Whether it succeeds or not, only directories on the way to the path are made. -/
theorem makeDirectories_makesWay (path : String) (depth : Nat) :
    t.disk.MakesWay (fun p => p = path ∨ Path.Encloses p path) (t.makeDirectories path depth).1.disk := by
  induction depth generalizing t path with
  | zero => exact Disk.makesWay_refl _ _
  | succ depth ih =>
    rw [makeDirectories]
    split
    next hmade => exact (ensureDirectory_makesWay hmade).mono fun p hp => .inl hp
    next =>
      split
      next => exact Disk.makesWay_refl _ _
      next parent hparent =>
        split
        · exact Disk.makesWay_refl _ _
        · have hbelow : t.disk.MakesWay (fun p => p = path ∨ Path.Encloses p path)
              (t.makeDirectories parent depth).1.disk := by
            refine (ih parent).mono fun p hp => .inr ?_
            rcases hp with rfl | hp
            · exact .single hparent
            · exact .head hparent hp
          split
          next hmade =>
            rw [hmade] at hbelow
            exact hbelow
          next hmade =>
            rw [hmade] at hbelow
            split
            next hlast => exact makesWay_trans hbelow ((ensureDirectory_makesWay hlast).mono fun p hp => .inl hp)
            next => exact hbelow
    next => exact Disk.makesWay_refl _ _

/-- The environment on a tree of files does no more than an environment may. -/
theorem environment_onDisk (send : Http.Request → Option Http.Response) :
    (environment send).OnDisk fun w => w.1.disk where
  isFile path w := rfl
  read path w := rfl
  send request w := rfl
  makeDirectories path w := makeDirectories_makesWay path (path.length + 1)
  write path text w := by
    rw [run_write]
    cases hwritten : w.1.write path text with
    | error e => exact .inl ⟨e, rfl, rfl⟩
    | ok t => exact .inr ⟨rfl, write_stores hwritten⟩

end FileTree

end TypedQuery
