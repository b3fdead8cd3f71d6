/-
The place of the configuration file. A file system works on places; a program
that runs in a directory names them by paths, relative ones from there
(`FileSystem.environment`). A setting read from the file in DIR names the same
place as the path in the file does for a program that runs inside DIR. So both
programs do the same, step by step (`Agree`), as long as the directory stands
(`Stands`): reading or writing it as a file fails, and making it again does
nothing.

One setting is no path: a schema is printed if its output is `-`. From
elsewhere this becomes a file of that name in DIR.
-/
import TypedQuery.Proofs.ConfigOption
import TypedQuery.Proofs.FileSystems
import TypedQuery.Proofs.ProgramRuns

namespace TypedQuery

open TypedQuery.Path

/-! ## Paths in two directories -/

namespace Path

variable {here : List String} {directory path : String}

theorem stepsFrom_absolute (h : isAbsolute path = true) : stepsFrom here path = steps path := by
  rw [stepsFrom, if_pos h]

theorem stepsFrom_relative (h : isAbsolute path = false) : stepsFrom here path = here ++ steps path := by
  rw [stepsFrom, h]
  rfl

theorem stepsFrom_join (hdirectory : directory ≠ "") (h : isAbsolute path = false) :
    stepsFrom here (join directory path) = stepsFrom here directory ++ steps path := by
  rw [stepsFrom, stepsFrom, isAbsolute_join hdirectory h, steps_join hdirectory h]
  split
  · rfl
  · rw [List.append_assoc]

/-- A path that has a step, or is absolute, leads to one place from both directories; all others lead to the directory
itself, if anywhere. -/
theorem place?_join (here : List String) (path : String) (hdirectory : directory ≠ "") :
    place? here (join directory path) = place? (stepsFrom here directory) path ∨
      (∀ p ∈ place? here (join directory path), p.steps = stepsFrom here directory) ∧
        ∀ p ∈ place? (stepsFrom here directory) path, p.steps = stepsFrom here directory := by
  cases habsolute : isAbsolute path with
  | true =>
    rw [join_absolute habsolute, place?, place?, stepsFrom_absolute habsolute, stepsFrom_absolute habsolute]
    exact .inl rfl
  | false =>
    have hne : join directory path ≠ "" := join_ne hdirectory habsolute (by simp)
    rw [place?, place?, if_neg hne, stepsFrom_join hdirectory habsolute, stepsFrom_relative habsolute]
    by_cases hsteps : steps path = []
    · -- such a path may still differ in whether it can only be a directory, and be empty inside
      rw [hsteps, List.append_nil]
      refine .inr ⟨by simp, fun p hp => ?_⟩
      split at hp
      next => cases hp
      next =>
        cases hp
        rfl
    · have hpath : path ≠ "" := by
        rintro rfl
        exact hsteps rfl
      rw [if_neg hpath, namesDirectory_join hdirectory habsolute hsteps]
      exact .inl rfl

/-- The steps of the directory that is made for a path; none if that is the working directory. -/
def parentFrom (here : List String) (path : String) : List String := (directory? path).elim [] (stepsFrom here)

theorem parentFrom_spec (here : List String) (path : String) :
    parentFrom here path = (stepsFrom here path).dropLast ∨
      parentFrom here path = [] ∧ (steps path).length ≤ 1 := by
  rw [parentFrom]
  rcases directory?_spec path with ⟨hnone, hshort⟩ | ⟨q, s, hsome, -, habsolute, hsteps⟩
  · rw [hnone]
    refine .inr ⟨rfl, ?_⟩
    rcases hshort with hnil | ⟨-, s, hs⟩
    · simp [hnil]
    · simp [hs]
  · rw [hsome, Option.elim_some, stepsFrom, stepsFrom, habsolute, hsteps]
    refine .inl ?_
    split
    · rw [List.dropLast_concat]
    · rw [← List.append_assoc, List.dropLast_concat]

/-- The same directory is made for a path from both directories, or else one on the way to the directory itself. -/
theorem parentFrom_join (here : List String) (path : String) (hdirectory : directory ≠ "") :
    parentFrom here (join directory path) = parentFrom (stepsFrom here directory) path ∨
      parentFrom here (join directory path) <+: stepsFrom here directory ∧
        parentFrom (stepsFrom here directory) path <+: stepsFrom here directory := by
  cases habsolute : isAbsolute path with
  | true =>
    rw [join_absolute habsolute, parentFrom, parentFrom]
    rcases directory?_spec path with ⟨hnone, -⟩ | ⟨q, -, hsome, -, hq, -⟩
    · rw [hnone]
      exact .inl rfl
    · rw [hsome, Option.elim_some, Option.elim_some, stepsFrom_absolute (hq.trans habsolute),
        stepsFrom_absolute (hq.trans habsolute)]
      exact .inl rfl
  | false =>
    have houter := parentFrom_spec here (join directory path)
    have hinner := parentFrom_spec (stepsFrom here directory) path
    rw [stepsFrom_join hdirectory habsolute, steps_join hdirectory habsolute, List.length_append] at houter
    rw [stepsFrom_relative habsolute] at hinner
    generalize stepsFrom here directory = base at *
    -- the directory of a single step is `base`, or nothing, and that of no step is the one that `base` is in
    by_cases hlong : 1 < (steps path).length
    · exact .inl ((houter.resolve_right (by omega)).trans (hinner.resolve_right (by omega)).symm)
    · have hfront : ∀ {front : List String} {q : Prop},
          (front = (base ++ steps path).dropLast ∨ front = [] ∧ q) → front <+: base := by
        rintro front q (rfl | ⟨rfl, -⟩)
        · rw [List.dropLast_eq_take, List.length_append, List.take_append_of_le_length (by omega)]
          exact List.take_prefix _ _
        · exact List.nil_prefix
      exact .inr ⟨hfront houter, hfront hinner⟩

end Path

/-! ## A program in two directories -/

namespace Program

section directories

variable {σ : Type} {fs : FileSystem σ} {here : List String} {directory : String} {P : σ → Prop}

section stands

variable {α : Type} (hdirectory : directory ≠ "") (hstands : fs.Stands (stepsFrom here directory) P)

include hdirectory in
/-- An operation at the place of a path does the same from both directories. -/
theorem matches_place {op : Place → StateM σ (Except FileError α)} {e : FileError} (path : String)
    (hkeeps : ∀ place w, P w → P ((op place).run w).2)
    (hfails : ∀ trailing w, P w → ∃ e, (op ⟨stepsFrom here directory, trailing⟩).run w = (.error e, w)) :
    Matches P ((place? here (join directory path)).elim (pure (.error e)) op)
      ((place? (stepsFrom here directory) path).elim (pure (.error e)) op) := by
  rcases place?_join here path hdirectory with hsame | ⟨houter, hinner⟩
  · rw [hsame]
    refine .refl fun w hw => ?_
    cases place? (stepsFrom here directory) path with
    | none => exact hw
    | some place => exact hkeeps place w hw
  · have hnone : ∀ {found : Option Place}, (∀ place ∈ found, place.steps = stepsFrom here directory) →
        ∀ w, P w → ∃ e', ((found.elim (pure (.error e)) op).run w) = (.error e', w) := by
      rintro (_ | ⟨steps, trailing⟩) hplace w hw
      · exact ⟨_, rfl⟩
      · obtain rfl : steps = stepsFrom here directory := hplace _ rfl
        exact hfails trailing w hw
    exact matches_failing (hnone houter) (hnone hinner)

include hdirectory hstands

theorem matches_read (path : String) : Matches P ((fs.environment here).read (join directory path))
    ((fs.environment (stepsFrom here directory)).read path) :=
  matches_place hdirectory path hstands.keepsRead hstands.read

theorem matches_write (path text : String) : Matches P ((fs.environment here).write (join directory path) text)
    ((fs.environment (stepsFrom here directory)).write path text) :=
  matches_place hdirectory path (fun place => hstands.keepsWrite place text)
    (fun trailing => hstands.write trailing text)

theorem agree_readFile (path : String) : Agree P Eq (readFile (fs.environment here) (join directory path))
    (readFile (fs.environment (stepsFrom here directory)) path) :=
  agree_attempt (fun _ _ => rfl) (matches_read hdirectory hstands path)

theorem agree_concatenate (paths : List String) :
    Agree P Eq (concatenate (fs.environment here) (paths.map (join directory)))
      (concatenate (fs.environment (stepsFrom here directory)) paths) := by
  induction paths with
  | nil => exact agree_pure rfl
  | cons path paths ih =>
    refine (agree_readFile hdirectory hstands path).bind fun text _ htext => ?_
    refine ih.bind fun more _ hmore => ?_
    rw [htext, hmore]
    exact agree_pure rfl

omit hdirectory in
/-- Making the directory of a path makes all directories on the way to it. -/
theorem run_makeParent {w : σ} (hw : P w) (here' : List String) (path : String) :
    (makeParent (fs.environment here') path).run w = (fs.makeDirectories (parentFrom here' path)).run w := by
  rw [makeParent, parentFrom]
  cases Path.directory? path with
  | none => exact (hstands.makeDirectories [] w List.nil_prefix hw).symm
  | some parent => rfl

theorem matches_makeParent (path : String) : Matches P (makeParent (fs.environment here) (join directory path))
    (makeParent (fs.environment (stepsFrom here directory)) path) := fun w hw => by
  rw [run_makeParent hstands hw, run_makeParent hstands hw]
  rcases parentFrom_join here path hdirectory with hsame | ⟨houter, hinner⟩
  · rw [hsame]
    exact ⟨hstands.keepsMakeDirectories _ _ hw, rfl, rfl⟩
  · rw [hstands.makeDirectories _ w houter hw, hstands.makeDirectories _ w hinner hw]
    exact ⟨hw, rfl, rfl⟩

theorem agree_deliver (text : String) (path? : Option String) :
    Agree P Eq (deliver (fs.environment here) text (path?.map (join directory)))
      (deliver (fs.environment (stepsFrom here directory)) text path?) := by
  cases path? with
  | none => exact agree_pure rfl
  | some path =>
    rw [Option.map_some, deliver_some, deliver_some]
    refine (agree_attempt ?_ (matches_makeParent hdirectory hstands path)).bind fun _ _ _ =>
      (agree_attempt ?_ (matches_write hdirectory hstands path text)).bind fun _ _ _ => agree_pure rfl
    · exact fun _ _ => rfl
    · exact fun _ _ => rfl

/-- With no paths of its own, `generate` does the same in both directories with the settings of the file. -/
theorem agree_generate {o : GenerateOptions} (hschema : o.schema? = none) (hqueries : o.queries = [])
    (houtput : o.output? = none) (c : Config) :
    Agree P Eq (generate (fs.environment here) o (c.rebase directory))
      (generate (fs.environment (stepsFrom here directory)) o c) := by
  have hnone : ∀ {path? : Option String}, (none <|> path?) = path? := fun {path?} => by cases path? <;> rfl
  unfold generate
  simp only [hschema, hqueries, houtput, Config.rebase, hnone, List.isEmpty_nil, if_true, List.isEmpty_map]
  refine (agree_demand _).bind fun _ schemaPath hpath => ?_
  subst hpath
  split
  next => exact (agree_throw (R := fun _ _ => False) _).bind fun _ _ hnever => hnever.elim
  next =>
    refine (agree_readFile hdirectory hstands schemaPath).bind fun sdl _ hsdl => ?_
    refine (agree_concatenate hdirectory hstands c.queries).bind fun text _ htext => ?_
    subst hsdl htext
    refine (agree_check _).bind fun document _ hdocument => ?_
    subst hdocument
    refine (agree_check _).bind fun generation _ hgeneration => ?_
    subst hgeneration
    refine (agree_check _).bind fun output _ hsame => ?_
    subst hsame
    exact agree_deliver hdirectory hstands output c.output?

/-- With no path of its own, `introspect` does the same in both directories with the settings of the file, unless these
say that the schema is to be printed. -/
theorem agree_introspect {o : IntrospectOptions} (houtput : o.output? = none) {c : Config}
    (hprinted : c.introspection.output ≠ "-") :
    Agree P Eq (introspect (fs.environment here) o (c.rebase directory).introspection)
      (introspect (fs.environment (stepsFrom here directory)) o c.introspection) := by
  have hpath : join directory c.introspection.output ≠ "-" := by
    cases habsolute : isAbsolute c.introspection.output with
    | true => rwa [join_absolute habsolute]
    | false => exact join_ne hdirectory habsolute (by simp)
  unfold introspect
  simp only [houtput, Config.rebase, Option.getD_none, if_neg hprinted, if_neg hpath]
  have hdemand : Agree P Eq (demand .noEndpoint (o.endpoint? <|> c.introspection.endpoint?))
      (demand .noEndpoint (o.endpoint? <|> c.introspection.endpoint?)) :=
    agree_refl fun w hw => by rwa [outcome_demand]
  refine hdemand.bind fun url _ hurl => ?_
  subst hurl
  refine (agree_check _).bind fun request _ hrequest => ?_
  subst hrequest
  refine (agree_lift (hstands.keepsSend request)).bind fun answer _ hanswer => ?_
  subst hanswer
  refine (agree_check _).bind fun sdl _ hsdl => ?_
  subst hsdl
  exact agree_deliver hdirectory hstands sdl (some c.introspection.output)

end stands

/-! ## The configuration file -/

/-- The place of the configuration file in a directory. -/
def configPlace (base : List String) : Place := ⟨base ++ [defaultConfigPath], false⟩

theorem place?_config (base : List String) : place? base defaultConfigPath = some (configPlace base) := rfl

theorem place?_joinConfig (here : List String) (hdirectory : directory ≠ "") :
    place? here (join directory defaultConfigPath) = some (configPlace (stepsFrom here directory)) := by
  rw [← place?_config]
  refine (place?_join here defaultConfigPath hdirectory).resolve_right fun hstays => ?_
  simpa [configPlace] using hstays.2 _ (place?_config _)

/-- The settings of the file are taken relative to the directory that it is in. -/
theorem directory?_config (here : List String) (hdirectory : directory ≠ "") :
    ∃ q, directory? (join directory defaultConfigPath) = some q ∧ q ≠ "" ∧
      stepsFrom here q = stepsFrom here directory := by
  have hsteps : steps defaultConfigPath = [defaultConfigPath] := by decide
  have hlast : defaultConfigPath.toList.getLast? = some 'l' := by decide
  obtain ⟨q, hq, hne, habsolute, hsame⟩ := directory?_join hdirectory (by decide) hsteps hlast (by decide) (by decide)
  exact ⟨q, hq, hne, by rw [stepsFrom, stepsFrom, habsolute, hsame]⟩

/-- In the working directory nothing is taken relative to anything else. -/
theorem rebase_here (c : Config) : c.rebase "" = c := by
  have hjoin : join "" = id := funext fun path => by simp [join]
  simp [Config.rebase, hjoin]

theorem outcome_load (env : Environment (StateM σ)) (path : String) (w : σ) : outcome (loadConfig.load env path) w =
    match (env.read path).run w with
    | (.ok text, w') => (Config.ofFile path text, w')
    | (.error e, w') => (.error (.configRead path e), w') := by
  rw [loadConfig.load, outcome_bind, outcome_attempt]
  rcases (env.read path).run w with ⟨e | text, w'⟩
  · rfl
  · rfl

theorem outcome_loadDefault {env : Environment (StateM σ)} {w : σ}
    (h : (env.isFile defaultConfigPath).run w = (true, w)) :
    outcome (loadConfig env none) w = outcome (loadConfig.load env defaultConfigPath) w := by
  rw [loadConfig, outcome_bind, outcome_monadLift, h]
  rfl

/-- The file that is named in one directory and found in the other gives the same settings. -/
theorem endsAlike_loadConfig {w : σ} {q : String} (hdirectory : directory ≠ "")
    (hq : directory? (join directory defaultConfigPath) = some q)
    (hkeeps : ∀ place w, P w → P ((fs.read place).run w).2) (hw : P w)
    (hfile : (fs.isFile (configPlace (stepsFrom here directory))).run w = (true, w)) :
    EndsAlike P (fun a c => a = c.rebase q ∧ ∃ text,
        ((fs.read (configPlace (stepsFrom here directory))).run w).1 = .ok text ∧ Config.parse? text = some c)
      (outcome (loadConfig (fs.environment here) (some (join directory defaultConfigPath))) w)
      (outcome (loadConfig (fs.environment (stepsFrom here directory)) none) w) := by
  have hinside : directory? defaultConfigPath = none := by decide +kernel
  have houter : (fs.environment here).read (join directory defaultConfigPath) =
      fs.read (configPlace (stepsFrom here directory)) := by
    simp only [FileSystem.environment, place?_joinConfig here hdirectory, Option.elim_some]
  have hinner : (fs.environment (stepsFrom here directory)).read defaultConfigPath =
      fs.read (configPlace (stepsFrom here directory)) := rfl
  have hkept := hkeeps (configPlace (stepsFrom here directory)) w hw
  rw [outcome_loadDefault hfile, loadConfig, outcome_load, outcome_load, houter, hinner]
  rcases hread : (fs.read (configPlace (stepsFrom here directory))).run w with ⟨e | text, w'⟩ <;> rw [hread] at hkept
  · exact .failed rfl hkept
  · simp only [Config.ofFile, hq, hinside, Option.getD_some, Option.getD_none, rebase_here]
    cases hparse : Config.parse? text with
    | none => exact .failed rfl hkept
    | some c => exact .done ⟨rfl, text, rfl, hparse⟩ hkept

/-- The command names no file itself. -/
def NamesNoPath : Command → Prop
  | .generate o => o.schema? = none ∧ o.queries = [] ∧ o.output? = none
  | .introspect o => o.output? = none

/-- The command fetches a schema, and the settings in the world `w` say that it is to be printed. -/
def Prints (fs : FileSystem σ) (base : List String) (w : σ) (command : Command) : Prop :=
  (∃ o, command = .introspect o) ∧ ∃ text c, ((fs.read (configPlace base)).run w).1 = .ok text ∧
    Config.parse? text = some c ∧ c.introspection.output = "-"

theorem endsAlike_perform {w : σ} {command : Command} (hdirectory : directory ≠ "")
    (hstands : fs.Stands (stepsFrom here directory) P) (hw : P w)
    (hfile : (fs.isFile (configPlace (stepsFrom here directory))).run w = (true, w))
    (hplain : NamesNoPath command) (hwritten : ¬ Prints fs (stepsFrom here directory) w command) :
    EndsAlike P Eq (outcome (perform (fs.environment here) ⟨some (join directory defaultConfigPath), command⟩) w)
      (outcome (perform (fs.environment (stepsFrom here directory)) ⟨none, command⟩) w) := by
  obtain ⟨q, hq, hne, hbase⟩ := directory?_config here hdirectory
  refine (endsAlike_loadConfig hdirectory hq hstands.keepsRead hw hfile).bind ?_
  rintro _ c ⟨rfl, text, hread, hparse⟩
  -- the settings are taken relative to `q`, which need not be written as `directory` is
  rw [← hbase] at hstands ⊢
  cases command with
  | generate o =>
    obtain ⟨hschema, hqueries, houtput⟩ := hplain
    exact agree_generate hne hstands hschema hqueries houtput c
  | introspect o =>
    exact agree_introspect hne hstands hplain fun hprinted => hwritten ⟨⟨o, rfl⟩, text, c, hread, hparse, hprinted⟩

end directories

/-! ## The whole program -/

section program

variable {σ : Type} {P : σ → Prop}

/-- What is seen of a run: its exit code, its output, and the world that it leaves. -/
def observed (r : Outcome × σ) : Nat × String × σ := (r.1.exitCode, r.1.stdout, r.2)

theorem EndsAlike.observed {r r' : Except ProgramError String × σ} (h : EndsAlike P Eq r r') :
    Program.observed (ending r) = Program.observed (ending r') := by
  cases h with
  | done hsame _ => rw [hsame]
  | failed hcode _ => exact Prod.ext hcode rfl

end program

/-- Arguments that name no file end the program inside a directory with a configuration file, and elsewhere if they
also name that file, with the same exit code and output and in the same world, unless the settings of the file say
that a fetched schema is to be printed. -/
theorem run_elsewhere {σ : Type} {fs : FileSystem σ} {here outside inside : List String} {directory : String}
    {P : σ → Prop} {w : σ} (hdirectory : directory ≠ "") (hstands : fs.Stands (stepsFrom here directory) P) (hw : P w)
    (hfile : (fs.isFile (configPlace (stepsFrom here directory))).run w = (true, w))
    (hnamed : Command.parse outside = (Command.parse inside).withConfig (join directory defaultConfigPath))
    (hplain : ∀ invocation, Command.parse inside = .run invocation →
      invocation.config? = none ∧ NamesNoPath invocation.command)
    (hwritten : ∀ invocation, Command.parse inside = .run invocation →
      ¬ Prints fs (stepsFrom here directory) w invocation.command) :
    observed ((run (fs.environment here) outside).run w) =
      observed ((run (fs.environment (stepsFrom here directory)) inside).run w) := by
  cases hparse : Command.parse inside with
  | run invocation =>
    obtain ⟨config?, command⟩ := invocation
    obtain ⟨rfl, hpaths⟩ : config? = none ∧ NamesNoPath command := hplain _ hparse
    rw [hparse] at hnamed
    rw [run_of_parse hnamed, run_of_parse hparse]
    exact (endsAlike_perform hdirectory hstands hw hfile hpaths (hwritten _ hparse)).observed
  | showVersion | showHelp | refused text? =>
    rw [hparse] at hnamed
    rw [run, run, hnamed, hparse]
    rfl

/-- A tree with a configuration file in one directory, which says where a fetched schema goes. -/
def project (output : String) : FileTree := .ofFiles [("d/gqlshape.toml",
  "[introspection]\nendpoint = \"http://localhost\"\noutput = \"" ++ output ++ "\"\n")]

/-- The file system of such trees, with a server of a schema with one scalar. -/
def server : FileSystem (FileTree × List Http.Request) := FileTree.fileSystem fun _ => some ⟨200,
  "\x7b\"data\":\x7b\"__schema\":\x7b\"types\":[\x7b\"kind\":\"SCALAR\",\"name\":\"Date\"\x7d]\x7d\x7d\x7d"⟩

/-- Named from elsewhere, the file makes the program save the schema where it does inside the directory. -/
theorem saved_elsewhere :
    let inside := (run (server.environment ["d"]) ["introspect"]).run (project "sdl", [])
    let elsewhere := (run (server.environment []) ["--config", "d/gqlshape.toml", "introspect"]).run (project "sdl", [])
    inside.2.1.read "d/sdl" = .ok "scalar Date\n\n" ∧ observed elsewhere = observed inside := by
  refine ⟨by decide +kernel, ?_⟩
  have hinside : Command.parse ["introspect"] = .run ⟨none, .introspect {}⟩ := by decide +kernel
  have hnamed : Command.parse ["--config", "d/gqlshape.toml", "introspect"] =
      (Command.parse ["introspect"]).withConfig (join "d" defaultConfigPath) := by
    refine Command.parse_config (.behind (by decide)) (by decide) (by decide) fun _ h => ?_
    rw [hinside] at h
    cases h
    rfl
  have hbase : ["d"] = stepsFrom [] "d" := by decide
  have hstands : server.Stands (stepsFrom [] "d") (·.1.Leads (stepsFrom [] "d")) :=
    FileTree.stands _ (by decide +kernel)
  have hleads : (project "sdl").Leads (stepsFrom [] "d") := by decide +kernel
  have hfile : (server.isFile (configPlace (stepsFrom [] "d"))).run (project "sdl", []) = (true, project "sdl", []) :=
    Prod.ext (by decide +kernel) rfl
  rw [hbase]
  refine run_elsewhere (by decide) hstands hleads hfile hnamed ?_ ?_
  · rintro invocation h
    rw [hinside] at h
    cases h
    exact ⟨rfl, rfl⟩
  · rintro invocation h ⟨-, text, c, htext, hc, hprinted⟩
    have hread : ((server.read (configPlace ["d"])).run (project "sdl", [])).1 =
      .ok "[introspection]\nendpoint = \"http://localhost\"\noutput = \"sdl\"\n" := by decide +kernel
    have hsettings : Config.parse? "[introspection]\nendpoint = \"http://localhost\"\noutput = \"sdl\"\n" =
      some { introspection := { endpoint? := some "http://localhost", output := "sdl" } } := by decide +kernel
    obtain rfl := Except.ok.inj (hread.symm.trans htext)
    obtain rfl := Option.some.inj (hsettings.symm.trans hc)
    exact absurd hprinted (by decide)

/-- A schema that is printed inside the directory is saved there from elsewhere, in a file of the name `-`. -/
theorem printed_only_inside :
    let inside := (run (server.environment ["d"]) ["introspect"]).run (project "-", [])
    let elsewhere := (run (server.environment []) ["--config", "d/gqlshape.toml", "introspect"]).run (project "-", [])
    inside.1 = .done "scalar Date\n\n" ∧ inside.2.1 = project "-" ∧
      elsewhere.1 = .done "" ∧ elsewhere.2.1.read "d/-" = .ok "scalar Date\n\n" := by
  decide +kernel

end Program

end TypedQuery
