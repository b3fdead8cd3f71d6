/-
What a run of the program changes. A command makes its whole text (`produce`)
before any of it goes to its destination (`perform_eq`), and until then the
program only reads (`keeps_produce`). Delivering the text is the last step: it is
printed, or stored as the whole of one file, or the run fails with no file
changed (`Delivers`).
-/
import TypedQuery.Proofs.Disks
import TypedQuery.Proofs.ProgramRuns

namespace TypedQuery

/-- Where the text of a command goes: to a file, or else to standard output. -/
def Command.destination? (c : Config) : Command → Option String
  | .generate o => o.output? <|> c.output?
  | .introspect o =>
    let path := o.output?.getD c.introspection.output
    if path = "-" then none else some path

namespace Program

/-- The text that a command makes with its settings. -/
def produce {m : Type → Type} [Monad m] (env : Environment m) (c : Config) : Command → Run m String
  | .generate o => do
    let schemaPath ← demand .noSchema (o.schema? <|> c.schema?)
    let queries := if o.queries.isEmpty then c.queries else o.queries
    if queries.isEmpty then throw .noQueries
    let scalars := (ScalarMappings.default.insertAll c.scalars).insertAll o.scalars
    let schema := { Schema.parse (← readFile env schemaPath) with scalars := scalars }
    let document ← check ((Document.parse (← concatenate env queries)).mapError .document)
    let generation ← check ((schema.generate document).mapError .generation)
    check ((o.format?.getD .code).render generation)
  | .introspect o => do
    let url ← demand .noEndpoint (o.endpoint? <|> c.introspection.endpoint?)
    let headers := Introspection.effectiveHeaders c.introspection.headers o.headers
    let request ← check ((Introspection.request url headers).mapError .fetch)
    check ((Introspection.interpret (← ExceptT.lift (env.send request))).mapError .fetch)

section

variable {σ κ : Type} {env : Environment (StateM σ)} {disk : σ → Disk κ}

/-- A command makes its text, and then delivers it. -/
theorem perform_eq (env : Environment (StateM σ)) (invocation : Invocation) : perform env invocation = (do
    let c ← loadConfig env invocation.config?
    let text ← produce env c invocation.command
    deliver env text (invocation.command.destination? c)) := by
  unfold perform
  congr 1
  funext c
  cases invocation.command with
  | generate o =>
    simp only [generate, produce, Command.destination?, bind_assoc]
    refine bind_congr fun schemaPath => ?_
    generalize (if o.queries.isEmpty then c.queries else o.queries) = queries
    split <;> simp
  | introspect o => simp only [introspect, produce, Command.destination?, bind_assoc]

/-! ## Making and delivering a text -/

/-- What delivering a text does: it is printed, or stored as the whole of a file, or no file changes. At most
directories on the way to the file are made before that. -/
inductive Delivers (text : String) : Option String → Disk κ → Except ProgramError String → Disk κ → Prop
  | printed {before} : Delivers text none before (.ok text) before
  | stored {path before middle after place} (hway : before.MakesWay (Path.Encloses · path) middle)
    (hplace : after.locate? path = some place) (hstored : Disk.Stores place text middle after) :
    Delivers text (some path) before (.ok "") after
  | failed {path e before after} (hway : before.MakesWay (Path.Encloses · path) after) :
    Delivers text (some path) before (.error e) after

section onDisk

variable (henv : env.OnDisk disk)
include henv

theorem keeps_readFile (path : String) : Keeps disk (readFile env path) := keeps_attempt (henv.read path)

theorem keeps_concatenate (paths : List String) : Keeps disk (concatenate env paths) := by
  induction paths with
  | nil => exact keeps_pure
  | cons path paths ih => exact (keeps_readFile henv path).bind fun _ => ih.bind fun _ => keeps_pure

/-- Until its text is made a command only reads. -/
theorem keeps_produce (c : Config) (command : Command) : Keeps disk (produce env c command) := by
  cases command with
  | generate o =>
    refine keeps_demand.bind fun schemaPath => ?_
    have hrest : ∀ queries, Keeps disk (readFile env schemaPath >>= fun sdl => concatenate env queries >>= fun text =>
        check ((Document.parse text).mapError .document) >>= fun document =>
        check (({ Schema.parse sdl with
          scalars := (ScalarMappings.default.insertAll c.scalars).insertAll o.scalars : Schema }.generate
            document).mapError .generation) >>= fun generation =>
        check ((o.format?.getD .code).render generation)) := fun queries =>
      (keeps_readFile henv _).bind fun _ => (keeps_concatenate henv _).bind fun _ =>
        keeps_check.bind fun _ => keeps_check.bind fun _ => keeps_check
    dsimp only
    generalize (if o.queries.isEmpty then c.queries else o.queries) = queries
    split
    · exact keeps_throw.bind fun _ => hrest _
    · exact hrest _
  | introspect o =>
    exact keeps_demand.bind fun _ => keeps_check.bind fun request =>
      (keeps_lift (henv.send request)).bind fun _ => keeps_check

theorem makesWay_makeParent (path : String) (w : σ) :
    (disk w).MakesWay (Path.Encloses · path) (disk ((makeParent env path).run w).2) := by
  unfold makeParent
  cases hdirectory : Path.directory? path with
  | none => exact Disk.makesWay_refl _ _
  | some directory =>
    have hparent : Path.parent? path = some directory := (Option.filter_eq_some_iff.1 hdirectory).1
    refine (henv.makeDirectories directory w).mono fun p hp => ?_
    rcases hp with rfl | hp
    · exact .single hparent
    · exact .head hparent hp

theorem deliver_delivers (text : String) (path? : Option String) (w : σ) :
    Delivers text path? (disk w) (outcome (deliver env text path?) w).1
      (disk (outcome (deliver env text path?) w).2) := by
  cases path? with
  | none => exact .printed
  | some path =>
    have hway := makesWay_makeParent henv path w
    rw [deliver_some, outcome_bind, outcome_attempt]
    generalize (makeParent env path).run w = made at hway
    rcases made with ⟨e | _, w₁⟩
    · exact .failed hway
    · have hwrite := henv.write path text w₁
      simp only [Except.mapError, outcome_bind, outcome_attempt]
      generalize (env.write path text).run w₁ = written at hwrite
      rcases written with ⟨r, w₂⟩
      rcases hwrite with ⟨e, rfl, hsame⟩ | ⟨rfl, place, hplace, hstored⟩
      · refine .failed ?_
        rw [hsame]
        exact hway
      · exact .stored hway hplace hstored

end onDisk

/-! ## Whole runs -/

@[simp] theorem exitCode_failed_ne_zero (e : ProgramError) : (Outcome.failed e).exitCode ≠ 0 := by
  unfold Outcome.exitCode
  split <;> simp_all

/-- From the world `w`, the settings can be read, and with them the command makes `text` for its destination. -/
def Produces (env : Environment (StateM σ)) (invocation : Invocation) (w : σ) (text : String)
    (destination? : Option String) : Prop :=
  ∃ c w₁ w₂, outcome (loadConfig env invocation.config?) w = (.ok c, w₁) ∧
    outcome (produce env c invocation.command) w₁ = (.ok text, w₂) ∧ destination? = invocation.command.destination? c

/-- Performing a command fails before anything is changed, or comes to deliver the whole text. -/
theorem perform_delivers (henv : env.OnDisk disk) (invocation : Invocation) (w : σ) :
    (∃ e w', outcome (perform env invocation) w = (.error e, w') ∧ disk w' = disk w) ∨
    ∃ text destination?, Produces env invocation w text destination? ∧
      Delivers text destination? (disk w) (outcome (perform env invocation) w).1
        (disk (outcome (perform env invocation) w).2) := by
  have hload := keeps_loadConfig henv.isFile henv.read invocation.config? w
  rw [perform_eq, outcome_bind]
  rcases hc : outcome (loadConfig env invocation.config?) w with ⟨e | c, w₁⟩ <;> rw [hc] at hload
  · exact .inl ⟨e, w₁, rfl, hload⟩
  · have hproduce := keeps_produce henv c invocation.command w₁
    simp only [outcome_bind]
    rcases htext : outcome (produce env c invocation.command) w₁ with ⟨e | text, w₂⟩ <;> rw [htext] at hproduce
    · exact .inl ⟨e, w₂, rfl, hproduce.trans hload⟩
    · refine .inr ⟨text, invocation.command.destination? c, ⟨c, w₁, w₂, hc, htext, rfl⟩, ?_⟩
      have hdeliver := deliver_delivers henv text (invocation.command.destination? c) w₂
      rwa [hproduce.trans hload] at hdeliver

/-- What a failed run may leave behind: directories on the way to the file that the command's text was to go to. -/
def OnWay (env : Environment (StateM σ)) (arguments : List String) (w : σ) (directory : String) : Prop :=
  ∃ invocation text path, Command.parse arguments = .run invocation ∧ Produces env invocation w text (some path) ∧
    Path.Encloses directory path

/-- The text is all that is printed, with no change to the disk, or the whole of the one file that has changed. -/
def Output (text : String) (destination? : Option String) (printed : String) (before after : Disk κ) : Prop :=
  match destination? with
  | none => printed = text ∧ after = before
  | some path => printed = "" ∧ ∃ place, after.locate? path = some place ∧ after.text? place = some text ∧
      ∀ other, other ≠ place → after.text? other = before.text? other

theorem Delivers.output {text output : String} {destination? : Option String} {before after : Disk κ}
    (h : Delivers text destination? before (.ok output) after) : Output text destination? output before after := by
  cases h with
  | printed => exact ⟨rfl, rfl⟩
  | stored hway hplace hstored =>
    obtain ⟨hwhole, hothers⟩ := hstored.text?
    exact ⟨rfl, _, hplace, hwhole, fun other hne => (hothers other hne).trans (hway.text? other)⟩

/-- **A run that fails changes no file, and one that succeeds puts out one whole text.** At most directories on the way
to the output are made by a run that fails, and nothing is printed. -/
theorem run_whole_or_nothing (henv : env.OnDisk disk) {arguments : List String} {w w' : σ} {ending : Outcome}
    (h : (run env arguments).run w = (ending, w')) :
    (ending.exitCode ≠ 0 → ending.stdout = "" ∧ (∀ place, (disk w').text? place = (disk w).text? place) ∧
      (disk w).MakesWay (OnWay env arguments w) (disk w')) ∧
    (ending.exitCode = 0 → ∀ invocation, Command.parse arguments = .run invocation → ∃ text destination?,
      Produces env invocation w text destination? ∧ Output text destination? ending.stdout (disk w) (disk w')) := by
  cases hparse : Command.parse arguments with
  | refused text? =>
    rw [run, hparse] at h
    cases h
    exact ⟨fun _ => ⟨rfl, fun _ => rfl, Disk.makesWay_refl _ _⟩, by simp [Outcome.exitCode]⟩
  | showHelp | showVersion =>
    rw [run, hparse] at h
    cases h
    exact ⟨by simp [Outcome.exitCode], by simp⟩
  | run invocation =>
    rw [run_of_parse hparse] at h
    rcases perform_delivers henv invocation w with ⟨e, w₁, hfailed, hsame⟩ | ⟨text, destination?, hproduces, hdelivers⟩
    · rw [hfailed] at h
      cases h
      refine ⟨fun _ => ⟨rfl, fun place => by rw [hsame], ?_⟩, fun hcode => absurd hcode (by simp)⟩
      rw [hsame]
      exact Disk.makesWay_refl _ _
    · rcases hperformed : outcome (perform env invocation) w with ⟨e | output, w₁⟩ <;>
        rw [hperformed] at h hdelivers <;> cases h
      · cases hdelivers with
        | failed hway =>
          refine ⟨fun _ => ⟨rfl, hway.text?, hway.mono fun directory hin => ?_⟩, fun hcode => absurd hcode (by simp)⟩
          exact ⟨invocation, text, _, hparse, hproduces, hin⟩
      · refine ⟨fun hcode => absurd rfl hcode, ?_⟩
        intro _ _ hsame
        obtain rfl := Wish.run.inj hsame
        exact ⟨text, destination?, hproduces, hdelivers.output⟩

end

/-- A server of a schema with one scalar. -/
def scalarServer (_ : Http.Request) : Option Http.Response := some ⟨200,
  "\x7b\"data\":\x7b\"__schema\":\x7b\"types\":[\x7b\"kind\":\"SCALAR\",\"name\":\"Date\"\x7d]\x7d\x7d\x7d"⟩

/-- Fetches a schema beside a file of notes. -/
def fetchArguments (path : String) : List String := ["introspect", "--endpoint", "http://localhost", "-o", path]

def fetchTo (path : String) : Outcome × FileTree × List Http.Request :=
  (run (FileTree.environment scalarServer) (fetchArguments path)).run (.ofFiles [("notes", "kept")], [])

/-- A directory is no file to write: the run fails behind a new directory, and the notes are kept. Without the slash at
the end, the schema is the one file that changes. -/
theorem fetched_whole_or_nothing :
    let before := (FileTree.ofFiles [("notes", "kept")]).disk
    let failed := fetchTo "new/sdl/"
    let saved := fetchTo "new/sdl"
    (failed.1.exitCode = 1 ∧ failed.2.1.kind ["new"] = .directory ∧
      ∀ place, failed.2.1.disk.text? place = before.text? place) ∧
    saved.1.exitCode = 0 ∧ saved.2.1.disk.text? ["new", "sdl"] = some "scalar Date\n\n" ∧
      ∃ text destination?, Output text destination? saved.1.stdout before saved.2.1.disk := by
  have henv := FileTree.environment_onDisk scalarServer
  have hfailed : (fetchTo "new/sdl/").1.exitCode = 1 := by decide +kernel
  have hsaved : (fetchTo "new/sdl").1.exitCode = 0 := by decide +kernel
  have hparse : Command.parse (fetchArguments "new/sdl") =
      .run ⟨none, .introspect { endpoint? := some "http://localhost", output? := some "new/sdl" }⟩ := by decide +kernel
  have hrun : ∀ path, (run (FileTree.environment scalarServer) (fetchArguments path)).run
      (.ofFiles [("notes", "kept")], []) = ((fetchTo path).1, (fetchTo path).2) := fun _ => rfl
  refine ⟨⟨hfailed, by decide +kernel, ?_⟩, hsaved, by decide +kernel, ?_⟩
  · exact ((run_whole_or_nothing henv (hrun "new/sdl/")).1 (by simp [hfailed])).2.1
  · obtain ⟨text, destination?, -, houtput⟩ := (run_whole_or_nothing henv (hrun "new/sdl")).2 hsaved _ hparse
    exact ⟨text, destination?, houtput⟩

end Program

end TypedQuery
