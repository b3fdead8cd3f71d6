/-
Block strings: the text between triple quotes, and the value it stands for. The value keeps the
shape of the text and drops what comes from its place in the source: the common indentation of
all lines but the first, and blank lines at both ends.
-/

namespace TypedQuery.BlockString

/-- Cuts at every line feed, carriage return, or pair of the two. -/
def lines : List Char → List (List Char)
  | [] => [[]]
  | '\r' :: '\n' :: rest => [] :: lines rest
  | c :: rest =>
    if c = '\n' || c = '\r' then [] :: lines rest
    else match lines rest with
      | [] => [[c]]
      | line :: more => (c :: line) :: more

def isBlankChar (c : Char) : Bool := c = ' ' || c = '\t'

/-- How many blanks a line begins with. -/
def indentation (line : List Char) : Nat := (line.takeWhile isBlankChar).length

def isBlank (line : List Char) : Bool := line.all isBlankChar

/-- The least indentation of the lines that are not blank. -/
def commonIndentation (lines : List (List Char)) : Nat :=
  (((lines.filter (!isBlank ·)).map indentation).min?).getD 0

/-- Lines without the blank ones at the start. -/
def dropBlank (lines : List (List Char)) : List (List Char) := lines.dropWhile isBlank

/-- Lines without the blank ones at both ends. -/
def trimBlank (lines : List (List Char)) : List (List Char) :=
  (dropBlank (dropBlank lines).reverse).reverse

/-- Removes the common indentation of all lines but the first. -/
def dedent : List (List Char) → List (List Char)
  | [] => []
  | first :: rest =>
    let common := commonIndentation rest
    first :: rest.map (·.drop common)

/-- The value of a block string whose content, after unescaping, is `content`. -/
def value (content : List Char) : List Char :=
  ['\n'].intercalate (trimBlank (dedent (lines content)))

/-- The content up to the closing quotes, with escaped triple quotes replaced by themselves, and
the number of characters up to and with the closing quotes. -/
def content : List Char → Option (List Char × Nat)
  | '"' :: '"' :: '"' :: _ => some ([], 3)
  | '\\' :: '"' :: '"' :: '"' :: rest =>
    (content rest).map fun (cs, n) => ('"' :: '"' :: '"' :: cs, n + 4)
  | c :: rest => (content rest).map fun (cs, n) => (c :: cs, n + 1)
  | [] => none

end TypedQuery.BlockString
