/-
Command-line arguments as events: options with their values, flags and plain arguments, in order.
What an option means is decided elsewhere; here only the spelling counts.
-/

namespace TypedQuery.Command

/-- An option by its long name and perhaps a letter. -/
structure OptionSpec where
  name : String
  letter? : Option Char := none
  takesValue : Bool := true
deriving DecidableEq, Repr

inductive Event
  | option (name value : String)
  | flag (name : String)
  | plain (value : String)
  | unknown
  | malformed
deriving DecidableEq, Repr

namespace Event

/-- An argument that can be the value of the option in front of it. A single dash can. -/
def isValue (argument : String) : Bool := argument = "-" || argument.toList.head? ≠ some '-'

/-- An option whose value was an argument of its own, and what follows. If that is an unknown
option, only this counts. -/
def separate (e : Event) (more : List Event) : List Event :=
  match more with
  | unknown :: _ => more
  | _ => e :: more

/-- A long option, without its dashes, and the value that is attached to it. -/
def splitLong (cs : List Char) : String × Option String :=
  let name := cs.takeWhile (· ≠ '=')
  (String.ofList name, if name.length < cs.length
    then some (String.ofList (cs.drop (name.length + 1))) else none)

/-- What a group of letters behind a dash means: flags, and perhaps an option with what follows
as its value. An option at the end has none; its name is returned. -/
def letters (specs : List OptionSpec) : List Char → List Event × Option String
  | [] => ([], none)
  | c :: rest =>
    match specs.find? (·.letter? = some c) with
    | none => ([unknown], none)
    | some spec =>
      if spec.takesValue then
        if rest.isEmpty then ([], some spec.name)
        else
          let value := if rest.head? = some '=' then rest.tail else rest
          ([option spec.name (String.ofList value)], none)
      else
        let (more, open?) := letters specs rest
        (flag spec.name :: more, open?)

/-- The events of arguments. `open?` names the option that the next argument is the value of. -/
def scan (specs : List OptionSpec) (open? : Option String) : List String → List Event
  | [] => if open?.isSome then [malformed] else []
  | argument :: rest =>
    match open? with
    | some name =>
      if isValue argument then separate (option name argument) (scan specs none rest)
      else [malformed]
    | none =>
      match argument.toList with
      | ['-', '-'] => rest.map plain
      | '-' :: '-' :: cs =>
        let (name, value?) := splitLong cs
        match specs.find? (·.name = name), value? with
        | none, _ => [unknown]
        | some spec, some value =>
          if spec.takesValue then option name value :: scan specs none rest else [malformed]
        | some spec, none =>
          if spec.takesValue then scan specs (some name) rest
          else flag name :: scan specs none rest
      | '-' :: c :: cs =>
        let (events, open?) := letters specs (c :: cs)
        events ++ scan specs open? rest
      | _ => plain argument :: scan specs none rest

end Event

end TypedQuery.Command
