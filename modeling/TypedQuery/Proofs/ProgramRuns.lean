/-
Runs of the program over a world with state: what a step of a run returns from
a world and the world it leaves, composed through `bind` and the helpers of the
program. The environment is any environment on that world. A run may keep all
that is seen of the world in some way (`Keeps`), such as its files or the
requests that were sent, and two runs agree if from every world that has a
property they end alike (`Agree`); both are shown construct by construct. How
a run ends and what it delivers is read off before them.
-/
import TypedQuery.Program

namespace TypedQuery.Program

variable {σ α β : Type} {w : σ}

/-- What `x` returns from the world `w`, and the world it leaves. -/
def outcome (x : Run (StateM σ) α) (w : σ) : Except ProgramError α × σ := x.run.run w

/-! ## Outcomes, construct by construct -/

@[simp] theorem outcome_pure {a : α} : outcome (pure a : Run (StateM σ) α) w = (.ok a, w) := rfl

@[simp] theorem outcome_throw {e : ProgramError} : outcome (throw e : Run (StateM σ) α) w = (.error e, w) := rfl

@[simp] theorem outcome_check {r : Except ProgramError α} : outcome (check r : Run (StateM σ) α) w = (r, w) := rfl

@[simp] theorem outcome_lift {x : StateM σ α} : outcome (ExceptT.lift x) w = (.ok (x.run w).1, (x.run w).2) := rfl

@[simp] theorem outcome_monadLift {x : StateM σ α} :
    outcome (liftM x : Run (StateM σ) α) w = (.ok (x.run w).1, (x.run w).2) := rfl

@[simp] theorem outcome_attempt {cause : FileError → ProgramError} {x : StateM σ (Except FileError α)} :
    outcome (attempt cause x) w = ((x.run w).1.mapError cause, (x.run w).2) := rfl

theorem outcome_demand {e : ProgramError} {a? : Option α} :
    outcome (demand e a? : Run (StateM σ) α) w = (a?.elim (.error e) .ok, w) := by
  cases a? <;> rfl

theorem outcome_bind (x : Run (StateM σ) α) (f : α → Run (StateM σ) β) (w : σ) :
    outcome (x >>= f) w = match outcome x w with
      | (.ok a, w₁) => outcome (f a) w₁
      | (.error e, w₁) => (.error e, w₁) := by
  rcases h : outcome x w with ⟨e | a, w₁⟩
  all_goals
    have hx : x w = _ := h
    simp only [outcome, bind, ExceptT.bind, ExceptT.mk, StateT.bind, ExceptT.run, StateT.run, hx]
    rfl

/-! ## The parts of the program -/

/-- Makes the directory of a path, unless that is the working directory. -/
def makeParent {m : Type → Type} [Monad m] (env : Environment m) (path : String) : m (Except FileError Unit) :=
  (Path.directory? path).elim (pure (.ok ())) env.makeDirectories

theorem deliver_some {env : Environment (StateM σ)} (text path : String) :
    deliver env text (some path) = (do
      attempt (.makeDirectory ((Path.directory? path).getD "")) (makeParent env path)
      attempt (.write path) (env.write path text)
      return "") := by
  rw [deliver, makeParent]
  cases Path.directory? path <;> rfl

/-- What a run ends in, by what performing its command returns. -/
def ending : Except ProgramError String × σ → Outcome × σ
  | (.ok output, w) => (.done output, w)
  | (.error e, w) => (.failed e, w)

theorem run_of_parse {env : Environment (StateM σ)} {arguments : List String} {invocation : Invocation} {w : σ}
    (h : Command.parse arguments = .run invocation) :
    (run env arguments).run w = ending (outcome (perform env invocation) w) := by
  rw [run, h]
  simp only [StateT.run_bind, outcome]
  rcases (perform env invocation).run.run w with ⟨e | output, w'⟩ <;> rfl

/-! ## Steps that keep what is seen of the world -/

section keeps

variable {τ : Type} {view : σ → τ}

/-- However it ends, `x` leaves what `view` sees of the world as it was. -/
def Keeps (view : σ → τ) (x : Run (StateM σ) α) : Prop := ∀ w, view (outcome x w).2 = view w

theorem keeps_pure {a : α} : Keeps view (pure a) := fun _ => rfl

theorem keeps_throw {e : ProgramError} : Keeps view (throw e : Run (StateM σ) α) := fun _ => rfl

theorem keeps_check {r : Except ProgramError α} : Keeps view (check r) := fun _ => rfl

theorem keeps_demand {e : ProgramError} {a? : Option α} : Keeps view (demand e a?) := fun w => by
  rw [outcome_demand]

theorem keeps_attempt {cause : FileError → ProgramError} {x : StateM σ (Except FileError α)}
    (h : ∀ w, view (x.run w).2 = view w) : Keeps view (attempt cause x) := fun w => by
  rw [outcome_attempt]
  exact h w

theorem keeps_lift {x : StateM σ α} (h : ∀ w, view (x.run w).2 = view w) : Keeps view (ExceptT.lift x) := fun w => by
  rw [outcome_lift]
  exact h w

theorem Keeps.bind {x : Run (StateM σ) α} {f : α → Run (StateM σ) β} (hx : Keeps view x) (hf : ∀ a, Keeps view (f a)) :
    Keeps view (x >>= f) := fun w => by
  have h := hx w
  rw [outcome_bind]
  generalize outcome x w = r at h
  rcases r with ⟨e | a, w'⟩
  · exact h
  · exact (hf a w').trans h

/-- Loading the settings looks for a file and reads one. -/
theorem keeps_loadConfig {env : Environment (StateM σ)} (hisFile : ∀ path w, view ((env.isFile path).run w).2 = view w)
    (hread : ∀ path w, view ((env.read path).run w).2 = view w) (path? : Option String) :
    Keeps view (loadConfig env path?) := by
  have hload : ∀ path, Keeps view (loadConfig.load env path) := fun path =>
    (keeps_attempt (hread path)).bind fun _ => keeps_check
  cases path? with
  | some path => exact hload path
  | none =>
    refine Keeps.bind (hisFile defaultConfigPath) fun there => ?_
    cases there with
    | true => exact hload defaultConfigPath
    | false => exact keeps_pure

end keeps

/-! ## Runs that end alike -/

section agree

variable {σ α β γ δ : Type} {P : σ → Prop} {R : α → β → Prop} {S : γ → δ → Prop}

/-- Both ends are in one world of `P`, with results that `R` relates or with errors of one exit code. -/
inductive EndsAlike (P : σ → Prop) (R : α → β → Prop) : Except ProgramError α × σ → Except ProgramError β × σ → Prop
  | done {a b w} (h : R a b) (hw : P w) : EndsAlike P R (.ok a, w) (.ok b, w)
  | failed {e e' w} (h : (Outcome.failed e).exitCode = (Outcome.failed e').exitCode) (hw : P w) :
    EndsAlike P R (.error e, w) (.error e', w)

/-- From every world of `P`, `x` and `y` end alike. -/
def Agree (P : σ → Prop) (R : α → β → Prop) (x : Run (StateM σ) α) (y : Run (StateM σ) β) : Prop :=
  ∀ w, P w → EndsAlike P R (outcome x w) (outcome y w)

theorem agree_pure {a : α} {b : β} (h : R a b) : Agree P R (pure a) (pure b) := fun w hw => by
  rw [outcome_pure, outcome_pure]
  exact .done h hw

theorem agree_throw (e : ProgramError) : Agree P R (throw e) (throw e) := fun w hw => by
  rw [outcome_throw, outcome_throw]
  exact .failed rfl hw

theorem agree_refl {x : Run (StateM σ) α} (h : ∀ w, P w → P (outcome x w).2) : Agree P Eq x x := fun w hw => by
  have hkept := h w hw
  generalize outcome x w = r at hkept
  rcases r with ⟨e | a, w'⟩
  · exact .failed rfl hkept
  · exact .done rfl hkept

theorem agree_check (r : Except ProgramError α) : Agree P Eq (check r) (check r) := agree_refl fun w hw => by
  rwa [outcome_check]

theorem agree_lift {x : StateM σ α} (h : ∀ w, P w → P (x.run w).2) :
    Agree P Eq (ExceptT.lift x : Run (StateM σ) α) (ExceptT.lift x) := agree_refl fun w hw => by
  rw [outcome_lift]
  exact h w hw

theorem agree_demand {a? : Option α} {f : α → β} (e : ProgramError) :
    Agree P (fun b a => b = f a) (demand e (a?.map f)) (demand e a?) := fun w hw => by
  rw [outcome_demand, outcome_demand]
  cases a? with
  | none => exact .failed rfl hw
  | some a => exact .done rfl hw

theorem EndsAlike.bind {x : Run (StateM σ) α} {y : Run (StateM σ) β} {f : α → Run (StateM σ) γ}
    {g : β → Run (StateM σ) δ} {w : σ} (h : EndsAlike P R (outcome x w) (outcome y w))
    (hf : ∀ a b, R a b → Agree P S (f a) (g b)) : EndsAlike P S (outcome (x >>= f) w) (outcome (y >>= g) w) := by
  rw [outcome_bind, outcome_bind]
  generalize outcome x w = r at h
  generalize outcome y w = r' at h
  cases h with
  | done hab hw => exact hf _ _ hab _ hw
  | failed hcode hw => exact .failed hcode hw

theorem Agree.bind {x : Run (StateM σ) α} {y : Run (StateM σ) β} {f : α → Run (StateM σ) γ}
    {g : β → Run (StateM σ) δ} (h : Agree P R x y) (hf : ∀ a b, R a b → Agree P S (f a) (g b)) :
    Agree P S (x >>= f) (y >>= g) := fun w hw => (h w hw).bind hf

/-- From every world of `P`, both operations leave the same world of `P`; they return the same, or both fail. -/
def Matches (P : σ → Prop) (x y : StateM σ (Except FileError α)) : Prop :=
  ∀ w, P w → P (x.run w).2 ∧ (x.run w).2 = (y.run w).2 ∧ (x.run w).1.toOption = (y.run w).1.toOption

theorem Matches.refl {x : StateM σ (Except FileError α)} (h : ∀ w, P w → P (x.run w).2) : Matches P x x :=
  fun w hw => ⟨h w hw, rfl, rfl⟩

/-- Operations that fail and do nothing. -/
theorem matches_failing {x y : StateM σ (Except FileError α)} (hx : ∀ w, P w → ∃ e, x.run w = (.error e, w))
    (hy : ∀ w, P w → ∃ e, y.run w = (.error e, w)) : Matches P x y := fun w hw => by
  obtain ⟨e, he⟩ := hx w hw
  obtain ⟨e', he'⟩ := hy w hw
  rw [he, he']
  exact ⟨hw, rfl, rfl⟩

theorem agree_attempt {cause cause' : FileError → ProgramError} {x y : StateM σ (Except FileError α)}
    (hcause : ∀ e e', (Outcome.failed (cause e)).exitCode = (Outcome.failed (cause' e')).exitCode) (h : Matches P x y) :
    Agree P Eq (attempt cause x) (attempt cause' y) := fun w hw => by
  obtain ⟨hkept, hworld, hresult⟩ := h w hw
  rw [outcome_attempt, outcome_attempt, ← hworld]
  cases hx : (x.run w).1 <;> cases hy : (y.run w).1 <;> rw [hx, hy] at hresult
  · exact .failed (hcause _ _) hkept
  · cases hresult
  · cases hresult
  · obtain rfl := Option.some.inj hresult
    exact .done rfl hkept

end agree

end TypedQuery.Program
