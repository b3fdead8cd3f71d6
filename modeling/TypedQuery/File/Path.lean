/-
Paths as text: names joined by slashes. Single dots and doubled slashes mean nothing, and two dots
step back.
-/

namespace TypedQuery.Path

def isAbsolute (path : String) : Bool := path.toList.head? = some '/'

/-- The steps of a path: names, and two dots for a step back. -/
def steps (path : String) : List String :=
  ((path.toList.splitOn '/').filter fun s => !s.isEmpty && s ≠ ['.']).map String.ofList

/-- The path can only be a directory, since it ends in a slash or a dot behind one. -/
def namesDirectory (path : String) : Bool :=
  match path.toList.reverse with
  | '/' :: _ => true
  | '.' :: '/' :: _ => true
  | _ => false

/-- A reversed path without what means nothing at its end. A slash that is all there is stays. -/
def trimEnd : List Char → List Char
  | ['/'] => ['/']
  | '/' :: rest => trimEnd rest
  | '.' :: '/' :: rest => trimEnd ('/' :: rest)
  | cs => cs
termination_by cs => cs.length

/-- The path of the directory that a path is in: empty for a single name, and nothing for the
root and the empty path. -/
def parent? (path : String) : Option String :=
  let cs := trimEnd path.toList.reverse
  if cs.isEmpty || cs = ['/'] then none
  else some (String.ofList (trimEnd (cs.dropWhile (· ≠ '/'))).reverse)

/-- The directory of a path, unless that is the working directory. -/
def directory? (path : String) : Option String := (parent? path).filter (· ≠ "")

/-- A path taken relative to a directory. -/
def join (directory path : String) : String :=
  if isAbsolute path || directory = "" then path
  else if directory.toList.getLast? = some '/' then directory ++ path
  else directory ++ "/" ++ path

end TypedQuery.Path
