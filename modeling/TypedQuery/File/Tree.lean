/-
A tree of files below a working directory, with the operations that a program asks of it and the
reasons for which they fail. Nothing is found outside the tree.
-/
import TypedQuery.File.Path

namespace TypedQuery

/-- Why an operation on files failed. -/
inductive FileError
  | notFound
  | alreadyExists
  | notADirectory
  | isADirectory
  | other (text : String)
deriving DecidableEq, Repr

def FileError.message : FileError → String
  | notFound => "No such file or directory (os error 2)"
  | alreadyExists => "File exists (os error 17)"
  | notADirectory => "Not a directory (os error 20)"
  | isADirectory => "Is a directory (os error 21)"
  | other text => text

/-- Where something is: the names on the way from the working directory. -/
abbrev Location := List String

/-- Files with their text, and directories apart from the working directory. -/
structure FileTree where
  files : List (Location × String)
  directories : List Location
deriving DecidableEq, Repr

namespace FileTree

inductive Kind
  | file (text : String)
  | directory
  | absent
deriving DecidableEq, Repr

/-- What is at a location. -/
def kind (t : FileTree) (l : Location) : Kind :=
  if l = [] || l ∈ t.directories then .directory
  else match t.files.find? (·.1 = l) with
    | some (_, text) => .file text
    | none => .absent

/-- The location that steps lead to from a directory. What is stepped through must be there. -/
def follow (t : FileTree) (here : Location) : List String → Except FileError Location
  | [] => .ok here
  | step :: rest =>
    match t.kind here with
    | .file _ => .error .notADirectory
    | .absent => .error .notFound
    | .directory =>
      if step = ".." then
        if here = [] then .error .notFound else t.follow here.dropLast rest
      else t.follow (here ++ [step]) rest

/-- The location that a path names. -/
def locate (t : FileTree) (path : String) : Except FileError Location :=
  if path = "" || Path.isAbsolute path then .error .notFound else t.follow [] (Path.steps path)

/-- The text of a file. -/
def read (t : FileTree) (path : String) : Except FileError String := do
  match t.kind (← t.locate path) with
  | .file text => if Path.namesDirectory path then .error .notADirectory else .ok text
  | .directory => .error .isADirectory
  | .absent => .error .notFound

def isFile (t : FileTree) (path : String) : Bool := (t.read path).isOk

/-- Puts a text at the location of a file, which may be new. -/
def put (t : FileTree) (l : Location) (text : String) : FileTree :=
  if t.files.any (·.1 = l) then
    { t with files := t.files.map fun (k, old) => if k = l then (k, text) else (k, old) }
  else { t with files := t.files ++ [(l, text)] }

/-- Writes a whole file, which may be new; its directory must be there. -/
def write (t : FileTree) (path text : String) : Except FileError FileTree := do
  let l ← t.locate path
  match t.kind l with
  | .directory => .error .isADirectory
  | .file _ => if Path.namesDirectory path then .error .notADirectory else .ok (t.put l text)
  | .absent => if Path.namesDirectory path then .error .isADirectory else .ok (t.put l text)

/-- Makes one directory. -/
def makeDirectory (t : FileTree) (path : String) : Except FileError FileTree := do
  let l ← t.locate path
  match t.kind l with
  | .absent => .ok { t with directories := t.directories ++ [l] }
  | _ => .error .alreadyExists

def isDirectory (t : FileTree) (path : String) : Bool :=
  match t.locate path with
  | .ok l => t.kind l = .directory
  | .error _ => false

/-- Makes one directory unless it is there. -/
def ensureDirectory (t : FileTree) (path : String) : Except FileError FileTree :=
  match t.makeDirectory path with
  | .ok t => .ok t
  | .error e => if t.isDirectory path then .ok t else .error e

/-- Makes a directory and those that it is in, at most `depth` of them. What was made before a
failure stays. -/
def makeDirectories (t : FileTree) (path : String) : Nat → FileTree × Except FileError Unit
  | 0 => (t, .error .notFound)
  | depth + 1 =>
    match t.ensureDirectory path with
    | .ok t => (t, .ok ())
    | .error .notFound =>
      match Path.parent? path with
      | none => (t, .error .notFound)
      | some parent =>
        if parent = "" then (t, .error .notFound)
        else
          match t.makeDirectories parent depth with
          | (t, .error e) => (t, .error e)
          | (t, .ok ()) =>
            match t.ensureDirectory path with
            | .ok t => (t, .ok ())
            | .error e => (t, .error e)
    | .error e => (t, .error e)

/-- The tree of files by path, with the directories that they are in. -/
def ofFiles (files : List (String × String)) : FileTree :=
  let located := files.map fun (path, text) => (Path.steps path, text)
  ⟨located, (located.flatMap fun (l, _) => (List.range l.length).map l.take).filter (· ≠ [])⟩

end FileTree

end TypedQuery
