/-
Settings of a project: where its schema and its queries are, what scalars are in the host
program, and how a schema is fetched. Every setting may be missing, and an unknown one is refused.
-/
import TypedQuery.Toml.Reader

namespace TypedQuery

/-- How to fetch a schema. Headers are in the order of their names. -/
structure FetchConfig where
  endpoint? : Option String := none
  output : String := "schema.graphql"
  connectTimeout : Nat := 5000
  readTimeout : Nat := 15000
  headers : List (String × String) := []
deriving DecidableEq, Repr

/-- `scalars` are in the order of their names. -/
structure Config where
  schema? : Option String := none
  queries : List String := []
  output? : Option String := none
  scalars : List (String × String) := []
  introspection : FetchConfig := {}
deriving DecidableEq, Repr

namespace Config

def string? : Toml → Option String
  | .string s => some s
  | _ => none

def strings? : Toml → Option (List String)
  | .array items => items.mapM string?
  | _ => none

/-- A number of milliseconds. -/
def milliseconds? : Toml → Option Nat
  | .integer n => if 0 ≤ n then some n.toNat else none
  | _ => none

/-- A table of strings, in the order of its keys. -/
def stringTable? : Toml → Option (List (String × String))
  | .table entries => do
    let pairs ← entries.mapM fun (key, v) => (string? v).map ((key, ·))
    pure (pairs.mergeSort fun a b => a.1 ≤ b.1)
  | _ => none

/-- Sets one setting of the fetching. -/
def setFetch (c : FetchConfig) (key : String) (v : Toml) : Option FetchConfig :=
  match key with
  | "endpoint" => (string? v).map fun s => { c with endpoint? := some s }
  | "output" => (string? v).map fun s => { c with output := s }
  | "connect_timeout_ms" => (milliseconds? v).map fun n => { c with connectTimeout := n }
  | "read_timeout_ms" => (milliseconds? v).map fun n => { c with readTimeout := n }
  | "headers" => (stringTable? v).map fun hs => { c with headers := hs }
  | _ => none

/-- The settings of the fetching in the order in which a plain list gives them. -/
def fetchKeys : List String :=
  ["endpoint", "output", "connect_timeout_ms", "read_timeout_ms", "headers"]

/-- The settings of the fetching, as a table or as a plain list. -/
def fetch? : Toml → Option FetchConfig
  | .table entries => entries.foldlM (fun c (key, v) => setFetch c key v) {}
  | .array items => (fetchKeys.zip items).foldlM (fun c (key, v) => setFetch c key v) {}
  | _ => none

/-- Sets one setting. -/
def set (c : Config) (key : String) (v : Toml) : Option Config :=
  match key with
  | "schema" => (string? v).map fun s => { c with schema? := some s }
  | "queries" => (strings? v).map fun qs => { c with queries := qs }
  | "output" => (string? v).map fun s => { c with output? := some s }
  | "scalars" => (stringTable? v).map fun ss => { c with scalars := ss }
  | "introspection" => (fetch? v).map fun f => { c with introspection := f }
  | _ => none

/-- The settings that a text writes. -/
def parse? (text : String) : Option Config := do
  (← Toml.parse? text).foldlM (fun c (key, v) => c.set key v) {}

end Config

end TypedQuery
