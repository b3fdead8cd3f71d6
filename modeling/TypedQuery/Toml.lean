/-
Settings as they are written in a TOML document. Of the values that the format knows, those of
which no setting is made (floats, truth values, dates, tables in arrays of their own) are left
out: a document that holds one is refused as a whole.
-/

namespace TypedQuery

inductive Toml
  | string (s : String)
  | integer (n : Int)
  | array (items : List Toml)
  | table (entries : List (String × Toml))
deriving Repr

namespace Toml

/-- How a table came to be: by a header of its own, as part of another table's header, or by a
dotted key. -/
inductive Origin
  | header
  | implicit
  | dotted
deriving DecidableEq, Repr

/-- A document under construction. -/
inductive Entry
  | value (v : Toml)
  | table (origin : Origin) (entries : List (String × Entry))
deriving Repr

abbrev Entries := List (String × Entry)

mutual

/-- The value of a finished entry. -/
def Entry.finish : Entry → Toml
  | .value v => v
  | .table _ entries => .table (finishAll entries)

def finishAll : List (String × Entry) → List (String × Toml)
  | [] => []
  | (key, e) :: rest => (key, e.finish) :: finishAll rest

end

/-- Changes the entry of a key, which may be absent, if `f` allows it. -/
def alter (key : String) (f : Option Entry → Option Entry) : Entries → Option Entries
  | [] => (f none).map fun e => [(key, e)]
  | (k, e) :: rest =>
    if k = key then (f (some e)).map fun e => (k, e) :: rest
    else (alter key f rest).map ((k, e) :: ·)

/-- Adds a value under a dotted key. A table on the way must not have a header, and the table
that takes the value must come from dotted keys too. -/
def addDotted (v : Toml) : List String → String → Entries → Option Entries
  | [], key, entries =>
    alter key (fun
      | none => some (.value v)
      | some _ => none) entries
  | step :: path, key, entries =>
    alter step (fun
      | none => (addDotted v path key []).map (.table .dotted)
      | some (.table origin inner) =>
        if origin = .dotted || (origin = .implicit && !path.isEmpty) then
          (addDotted v path key inner).map (.table origin)
        else none
      | some (.value _) => none) entries

/-- Changes the entries of the table that a header named. -/
def inTable (f : Entries → Option Entries) : List String → Entries → Option Entries
  | [], entries => f entries
  | step :: path, entries =>
    alter step (fun
      | none => (inTable f path []).map (.table .implicit)
      | some (.table origin inner) => (inTable f path inner).map (.table origin)
      | some (.value _) => none) entries

/-- Opens the table `key` in its parent. A table is opened once; before that it may have come to
be as part of another header. -/
def openTable (key : String) : Entries → Option Entries :=
  alter key fun
    | none => some (.table .header [])
    | some (.table .implicit inner) => some (.table .header inner)
    | some _ => none

end Toml

end TypedQuery
