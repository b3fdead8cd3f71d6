/-
Doc comments: a description as lines of a comment. Bracketed words would be taken for links and
become code, unless they are links; a bare web address is put between angle brackets.
-/
import TypedQuery.Text.CharClass

namespace TypedQuery.Emission

/-- A web address ends before white space and before these. -/
def endsAddress (c : Char) : Bool :=
  Text.isWhiteSpace c || c = ')' || c = ',' || c = '>' || c = '\''

/-- The length of the web address at the head of `cs`, if there is one. -/
def addressLength? (cs : List Char) : Option Nat :=
  if "https://".toList.isPrefixOf cs || "http://".toList.isPrefixOf cs then
    some (cs.takeWhile (!endsAddress ·)).length
  else none

/-- The word at the head of `cs`, where a bracket was opened just before: what stands up to the
closing bracket, if that is something and no link target follows. -/
def bracketed? (cs : List Char) : Option (List Char) :=
  let word := cs.takeWhile (· ≠ ']')
  match cs.drop word.length with
  | _ :: rest => if word.isEmpty || rest.head? = some '(' then none else some word
  | [] => none

/-- `opened` says that the character in front of `cs` is an angle bracket. -/
def sanitizeFrom (opened : Bool) (cs : List Char) : List Char :=
  match cs with
  | [] => []
  | c :: rest =>
    if c = '[' then
      match bracketed? rest with
      | some word => '\x60' :: word ++ '\x60' :: sanitizeFrom false (rest.drop (word.length + 1))
      | none => c :: sanitizeFrom false rest
    else
      match addressLength? (c :: rest) with
      | some n =>
        let address := c :: rest.take (n - 1)
        (if opened then address else '<' :: address ++ ['>']) ++
          sanitizeFrom false (rest.drop (n - 1))
      | none => c :: sanitizeFrom (c = '<') rest
termination_by cs.length

/-- A description that is safe in a doc comment. -/
def sanitize (text : String) : String := String.ofList (sanitizeFrom false text.toList)

/-- Cuts at every line feed, together with a carriage return in front of it. A line feed at the
end begins no line. -/
def textLines : List Char → List (List Char)
  | [] => []
  | '\n' :: rest => [] :: textLines rest
  | '\r' :: '\n' :: rest => [] :: textLines rest
  | [c] => [[c]]
  | c :: rest =>
    match textLines rest with
    | [] => [[c]]
    | line :: more => (c :: line) :: more

/-- The lines of the comment for a description, each after one blank. -/
def docLines (description? : Option String) : List String :=
  match description? with
  | none => []
  | some text => (textLines (sanitize text).toList).map fun line => String.ofList (' ' :: line)

end TypedQuery.Emission
