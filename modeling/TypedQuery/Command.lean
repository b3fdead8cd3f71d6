/-
The commands of the program and how arguments ask for them.
-/
import TypedQuery.Command.Arguments
import TypedQuery.Text.CharClass

namespace TypedQuery

/-- What `generate` prints. -/
inductive OutputFormat
  | code
  | json
deriving DecidableEq, Repr

structure GenerateOptions where
  schema? : Option String := none
  queries : List String := []
  scalars : List (String × String) := []
  format? : Option OutputFormat := none
  output? : Option String := none
deriving DecidableEq, Repr

structure IntrospectOptions where
  endpoint? : Option String := none
  headers : List (String × String) := []
  connectTimeout? : Option Nat := none
  readTimeout? : Option Nat := none
  output? : Option String := none
deriving DecidableEq, Repr

inductive Command
  | generate (options : GenerateOptions)
  | introspect (options : IntrospectOptions)
deriving DecidableEq, Repr

/-- A command with the configuration file that was asked for. -/
structure Invocation where
  config? : Option String
  command : Command
deriving DecidableEq, Repr

/-- What arguments ask for. A refusal has a text if a pair was refused. -/
inductive Wish
  | run (invocation : Invocation)
  | showVersion
  | showHelp
  | refused (text? : Option String)
deriving DecidableEq, Repr

namespace Command

/-- A text without white space at both ends. -/
def trim (cs : List Char) : List Char :=
  ((cs.dropWhile Text.isWhiteSpace).reverse.dropWhile Text.isWhiteSpace).reverse

/-- The two parts of a text around the first separator, trimmed. -/
def splitPair? (separator : Char) (text : String) : Option (String × String) :=
  let cs := text.toList
  let first := cs.takeWhile (· ≠ separator)
  if first.length < cs.length then
    some (String.ofList (trim first), String.ofList (trim (cs.drop (first.length + 1))))
  else none

/-- A scalar and its host type, neither of them blank. -/
def parseScalar (text : String) : Except String (String × String) :=
  match splitPair? '=' text with
  | some (name, host) =>
    if name ≠ "" && host ≠ "" then .ok (name, host)
    else .error ("expected NAME=TYPE, got `" ++ text ++ "`")
  | none => .error ("expected NAME=TYPE, got `" ++ text ++ "`")

/-- A header and its value, which may be empty. -/
def parseHeader (text : String) : Except String (String × String) :=
  match splitPair? ':' text with
  | some (name, value) =>
    if name ≠ "" then .ok (name, value) else .error ("expected NAME: VALUE, got `" ++ text ++ "`")
  | none => .error ("expected NAME: VALUE, got `" ++ text ++ "`")

/-- A number below 2^64 in decimal digits, perhaps after a plus sign. -/
def parseNumber? (text : String) : Option Nat :=
  let digits := match text.toList with
    | '+' :: rest => rest
    | cs => cs
  if digits.isEmpty || !digits.all Char.isDigit then none
  else
    let n := digits.foldl (fun n c => n * 10 + (c.toNat - '0'.toNat)) 0
    if n < 0x10000000000000000 then some n else none

/-- Options that every command takes. -/
def globalOptions : List OptionSpec :=
  [⟨"config", none, true⟩, ⟨"verbose", some 'v', false⟩, ⟨"help", some 'h', false⟩]

def programOptions : List OptionSpec := globalOptions ++ [⟨"version", some 'V', false⟩]

def generateOptions : List OptionSpec :=
  globalOptions ++ [⟨"schema", none, true⟩, ⟨"scalar", none, true⟩, ⟨"format", none, true⟩,
    ⟨"output", some 'o', true⟩]

def introspectOptions : List OptionSpec :=
  globalOptions ++ [⟨"endpoint", none, true⟩, ⟨"header", none, true⟩,
    ⟨"connect-timeout-ms", none, true⟩, ⟨"read-timeout-ms", none, true⟩,
    ⟨"output", some 'o', true⟩]

/-- A step of reading a command: the new state, or what to do instead of going on. -/
abbrev Step (σ : Type) := Except Wish σ

/-- Wrong usage that has no text of its own. -/
def misuse {α : Type} : Except Wish α := .error (.refused none)

/-- Sets what may be given once. -/
def once {α : Type} (old? new? : Option α) : Except Wish (Option α) :=
  if old?.isSome || new?.isNone then misuse else .ok new?

/-- A path is not empty. -/
def path? (text : String) : Option String := if text = "" then none else some text

def pair (parse : String → Except String (String × String)) (text : String) :
    Except Wish (String × String) :=
  match parse text with
  | .ok p => .ok p
  | .error message => .error (.refused (some message))

/-- Takes a global option, or else passes the event to the command. -/
def takeGlobal {σ : Type} (own : Event → σ → Step σ) (e : Event) (s : Option String × σ) :
    Step (Option String × σ) :=
  match e with
  | .option "config" value => do .ok (← once s.1 (path? value), s.2)
  | .flag "verbose" => .ok s
  | .flag "help" => .error .showHelp
  | .flag "version" => .error .showVersion
  | .unknown | .malformed => misuse
  | e => do .ok (s.1, ← own e s.2)

def takeGenerate (e : Event) (o : GenerateOptions) : Step GenerateOptions :=
  match e with
  | .plain value => do .ok { o with queries := o.queries ++ [← (path? value).elim misuse .ok] }
  | .option "schema" value => do .ok { o with schema? := ← once o.schema? (path? value) }
  | .option "scalar" value => do .ok { o with scalars := o.scalars ++ [← pair parseScalar value] }
  | .option "format" value => do
    let format? := match value with
      | "rust" => some OutputFormat.code
      | "json" => some OutputFormat.json
      | _ => none
    .ok { o with format? := ← once o.format? format? }
  | .option "output" value => do .ok { o with output? := ← once o.output? (path? value) }
  | _ => misuse

def takeIntrospect (e : Event) (o : IntrospectOptions) : Step IntrospectOptions :=
  match e with
  | .option "endpoint" value => do .ok { o with endpoint? := ← once o.endpoint? (some value) }
  | .option "header" value => do .ok { o with headers := o.headers ++ [← pair parseHeader value] }
  | .option "connect-timeout-ms" value => do
    .ok { o with connectTimeout? := ← once o.connectTimeout? (parseNumber? value) }
  | .option "read-timeout-ms" value => do
    .ok { o with readTimeout? := ← once o.readTimeout? (parseNumber? value) }
  | .option "output" value => do .ok { o with output? := ← once o.output? (path? value) }
  | _ => misuse

/-- Reads the arguments of a command. A configuration file named after the command counts before
one named in front of it. -/
def parseCommand {σ : Type} (specs : List OptionSpec) (own : Event → σ → Step σ) (start : σ)
    (toCommand : σ → Command) (config? : Option String) (arguments : List String) : Wish :=
  match (Event.scan specs none arguments).foldlM (fun s e => takeGlobal own e s) (none, start) with
  | .error wish => wish
  | .ok (inner?, o) => .run ⟨inner? <|> config?, toCommand o⟩

/-- The command of that name with its arguments. -/
def ofName (name : String) (config? : Option String) (arguments : List String) : Wish :=
  match name with
  | "generate" =>
    parseCommand generateOptions takeGenerate {} .generate config? arguments
  | "introspect" =>
    parseCommand introspectOptions takeIntrospect {} .introspect config? arguments
  | "help" =>
    match arguments with
    | [] | ["generate"] | ["introspect"] | ["help"] => .showHelp
    | _ => .refused none
  | _ => .refused none

/-- The arguments in front of the command's name, the name, and the arguments behind it. The
value of an option is not a name. -/
def splitAtName (valueNext : Bool) : List String → List String × Option (String × List String)
  | [] => ([], none)
  | argument :: rest =>
    if (valueNext && Event.isValue argument) || !Event.isValue argument then
      let next := argument = "--config"
      let (front, found) := splitAtName next rest
      (argument :: front, if argument = "--" then none else found)
    else ([], some (argument, rest))

/-- What the arguments of the program ask for. -/
def parse (arguments : List String) : Wish :=
  let (front, found?) := splitAtName false arguments
  match (Event.scan programOptions none front).foldlM
      (fun s e => takeGlobal (fun _ _ => misuse) e s) (none, ()) with
  | .error wish => wish
  | .ok (config?, ()) =>
    match found? with
    | none => .refused none
    | some (name, rest) => ofName name config? rest

end Command

end TypedQuery
