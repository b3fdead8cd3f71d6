/-
The program: from arguments to an exit code and printed text, over an environment that holds
files and answers requests. The environment is a parameter, so that a run can be watched on a tree
of files as well as performed.
-/
import TypedQuery.Source.Definitions
import TypedQuery.Generation.Json
import TypedQuery.Json.Printer
import TypedQuery.Emission
import TypedQuery.Config
import TypedQuery.Command
import TypedQuery.File.Tree
import TypedQuery.Introspection.Fetch

namespace TypedQuery

/-- What a program needs of the world around it. A request without an answer did not get
through. -/
structure Environment (m : Type → Type) where
  isFile : String → m Bool
  read : String → m (Except FileError String)
  makeDirectories : String → m (Except FileError Unit)
  write : String → String → m (Except FileError Unit)
  send : Http.Request → m (Option Http.Response)

/-- Why a run failed. -/
inductive ProgramError
  | configRead (path : String) (e : FileError)
  | configMalformed (path : String)
  | noSchema
  | noQueries
  | noEndpoint
  | read (path : String) (e : FileError)
  | makeDirectory (path : String) (e : FileError)
  | write (path : String) (e : FileError)
  | document (e : DocumentError)
  | generation (e : GenerationError)
  | emission (e : Emission.EmissionError)
  | fetch (e : Introspection.FetchError)
deriving DecidableEq, Repr

namespace ProgramError

def message : ProgramError → String
  | configRead path e =>
    "could not read config file " ++ path ++ ": " ++ e.message ++ ": " ++ e.message
  | configMalformed path => "invalid config file " ++ path
  | noSchema => "no schema given (use --schema or set `schema` in gqlshape.toml)"
  | noQueries => "no query documents given (pass files or set `queries` in gqlshape.toml)"
  | noEndpoint =>
    "no endpoint given (use --endpoint or set `introspection.endpoint` in gqlshape.toml)"
  | read path e => "could not read " ++ path ++ ": " ++ e.message
  | makeDirectory path e => "could not create " ++ path ++ ": " ++ e.message
  | write path e => "could not write " ++ path ++ ": " ++ e.message
  | document e => e.message
  | generation e => e.message
  | emission e => e.message
  | fetch e => e.message

end ProgramError

/-- How a run ended. -/
inductive Outcome
  | done (output : String)
  | failed (e : ProgramError)
  | help
  | misuse (text? : Option String)
deriving DecidableEq, Repr

namespace Outcome

/-- A name that cannot be an identifier ends the program without a report. -/
def exitCode : Outcome → Nat
  | done _ => 0
  | help => 0
  | failed (.emission (.notAnIdentifier _)) => 101
  | failed _ => 1
  | misuse _ => 2

/-- What goes to standard output. -/
def stdout : Outcome → String
  | done output => output
  | _ => ""

/-- What goes to standard error, the usage of the program apart. -/
def stderr : Outcome → String
  | failed e => "Error: " ++ e.message ++ "\n"
  | misuse (some text) => text ++ "\n"
  | _ => ""

end Outcome

/-- Looked up in the working directory when no configuration file is named. -/
def defaultConfigPath : String := "gqlshape.toml"

/-- The settings with their paths taken relative to the directory of their file. -/
def Config.rebase (c : Config) (directory : String) : Config :=
  { c with
    schema? := c.schema?.map (Path.join directory)
    queries := c.queries.map (Path.join directory)
    output? := c.output?.map (Path.join directory)
    introspection :=
      { c.introspection with output := Path.join directory c.introspection.output } }

/-- The settings that the text of a configuration file writes. -/
def Config.ofFile (path text : String) : Except ProgramError Config :=
  match Config.parse? text with
  | none => .error (.configMalformed path)
  | some c => .ok (c.rebase ((Path.directory? path).getD ""))

/-- The text of a generation in a format. -/
def OutputFormat.render (format : OutputFormat) (g : Generation) : Except ProgramError String :=
  match format with
  | .code => (Emission.emit g).mapError .emission
  | .json => .ok (g.toJson.pretty ++ "\n")

namespace Program

variable {m : Type → Type} [Monad m]

/-- A run that may fail. -/
abbrev Run (m : Type → Type) := ExceptT ProgramError m

/-- Performs an operation on files, where `cause` says what its failure means. -/
def attempt {α : Type} (cause : FileError → ProgramError) (x : m (Except FileError α)) : Run m α :=
  ExceptT.mk do return (← x).mapError cause

def check {α : Type} (x : Except ProgramError α) : Run m α := ExceptT.mk (pure x)

/-- What has to be there. -/
def demand {α : Type} (e : ProgramError) : Option α → Run m α
  | some a => pure a
  | none => throw e

/-- The settings of a run: of the file that was named, or else of the default file, or else
none. -/
def loadConfig (env : Environment m) (path? : Option String) : Run m Config := do
  match path? with
  | some path => load path
  | none => if ← env.isFile defaultConfigPath then load defaultConfigPath else return {}
where
  load (path : String) : Run m Config := do
    check (Config.ofFile path (← attempt (.configRead path) (env.read path)))

def readFile (env : Environment m) (path : String) : Run m String :=
  attempt (.read path) (env.read path)

/-- The texts of all files, each followed by a line end. -/
def concatenate (env : Environment m) : List String → Run m String
  | [] => return ""
  | path :: rest => do
    let text ← readFile env path
    let more ← concatenate env rest
    return text ++ "\n" ++ more

/-- Writes a text to a file, whose directories are made, or else returns it to be printed. -/
def deliver (env : Environment m) (text : String) : Option String → Run m String
  | none => return text
  | some path => do
    match Path.directory? path with
    | some directory =>
      attempt (.makeDirectory directory) (env.makeDirectories directory)
    | none => pure ()
    attempt (.write path) (env.write path text)
    return ""

/-- Makes the code or the JSON for the queries of a project. -/
def generate (env : Environment m) (o : GenerateOptions) (c : Config) : Run m String := do
  let schemaPath ← demand .noSchema (o.schema? <|> c.schema?)
  let queries := if o.queries.isEmpty then c.queries else o.queries
  if queries.isEmpty then throw .noQueries
  let scalars := (ScalarMappings.default.insertAll c.scalars).insertAll o.scalars
  let schema := { Schema.parse (← readFile env schemaPath) with scalars := scalars }
  let text ← concatenate env queries
  let document ← check ((Document.parse text).mapError .document)
  let generation ← check ((schema.generate document).mapError .generation)
  let output ← check ((o.format?.getD .code).render generation)
  deliver env output (o.output? <|> c.output?)

/-- Fetches the schema of an endpoint. -/
def introspect (env : Environment m) (o : IntrospectOptions) (c : FetchConfig) : Run m String := do
  let url ← demand .noEndpoint (o.endpoint? <|> c.endpoint?)
  let headers := Introspection.effectiveHeaders c.headers o.headers
  let request ← check ((Introspection.request url headers).mapError .fetch)
  let answer ← ExceptT.lift (env.send request)
  let sdl ← check ((Introspection.interpret answer).mapError .fetch)
  let path := o.output?.getD c.output
  deliver env sdl (if path = "-" then none else some path)

/-- Runs a command with the settings of its project. -/
def perform (env : Environment m) (invocation : Invocation) : Run m String := do
  let c ← loadConfig env invocation.config?
  match invocation.command with
  | .generate o => generate env o c
  | .introspect o => introspect env o c.introspection

/-- Runs the program. -/
def run (env : Environment m) (arguments : List String) : m Outcome := do
  match Command.parse arguments with
  | .refused text? => return .misuse text?
  | .showHelp => return .help
  | .showVersion => return .done "gqlshape 0.1.0\n"
  | .run invocation =>
    match ← (perform env invocation).run with
    | .ok output => return .done output
    | .error e => return .failed e

end Program

/-- An environment on a tree of files, in which `send` answers requests. Requests that were sent
are kept. -/
def FileTree.environment (send : Http.Request → Option Http.Response) :
    Environment (StateM (FileTree × List Http.Request)) where
  isFile path := do return (← get).1.isFile path
  read path := do return (← get).1.read path
  makeDirectories path := do
    let (t, requests) ← get
    let (t, result) := t.makeDirectories path (path.length + 1)
    set (t, requests)
    return result
  write path text := do
    let (t, requests) ← get
    match t.write path text with
    | .ok t =>
      set (t, requests)
      return .ok ()
    | .error e => return .error e
  send request := do
    let (t, requests) ← get
    set (t, requests ++ [request])
    return send request

end TypedQuery
