/-
From source text to lexemes. `scan` reads the whole text into pieces, each a lexeme or a stretch
that is no token; strict reading (`Source.lexemes?`) accepts only a text without such stretches,
and lenient reading (`Source.lexemes`) leaves them out.
-/
import TypedQuery.Source.Token
import TypedQuery.Source.Number
import TypedQuery.Source.BlockString
import TypedQuery.Source.QuotedString

namespace TypedQuery.Source

/-- Blanks, line ends, commas and byte order marks carry no meaning. -/
def isIgnored (c : Char) : Bool :=
  c = ' ' || c = '\t' || c = '\n' || c = '\r' || c = ',' || c = '\uFEFF'

/-- How many characters of ignored text come first: ignored characters and comments, which run
from `#` to the end of the line. -/
def ignoredLength (inComment : Bool) : List Char → Nat
  | [] => 0
  | c :: rest =>
    if inComment then 1 + ignoredLength (c ≠ '\n' && c ≠ '\r') rest
    else if isIgnored c then 1 + ignoredLength false rest
    else if c = '#' then 1 + ignoredLength true rest
    else 0

/-- The token that `c` begins, where `rest` follows, and the number of further characters it
takes. Without a token, the number of further characters that are dropped with `c`. -/
def scanToken (c : Char) (rest : List Char) : Option Token × Nat :=
  match Token.ofPunctuator? c with
  | some t => (some t, 0)
  | none =>
    if isNameStart c then
      let tail := rest.takeWhile isNameContinue
      (some (.name (String.ofList (c :: tail))), tail.length)
    else if c.isDigit || c = '-' then
      let number := Number.scan (c :: rest)
      (if number.accepted then some .number else none, number.length - 1)
    else if c = '.' then
      if rest.take 2 = ['.', '.'] then (some .spread, 2) else (none, 0)
    else if c = '"' then
      if rest.take 2 = ['"', '"'] then
        match BlockString.content (rest.drop 2) with
        | some (content, n) =>
          (some (.string (String.ofList (BlockString.value content))), n + 2)
        | none => (none, rest.length)
      else
        match QuotedString.content rest with
        | some (value, n) => (value.map fun cs => .string (String.ofList cs), n)
        | none => (none, rest.length)
    else (none, 0)

/-- The lexemes of a text; `none` stands for a stretch that is no token. -/
def scan (text : List Char) : List (Option Lexeme) :=
  let n := ignoredLength false text
  match _h : text.drop n with
  | [] => []
  | c :: rest =>
    let (token, m) := scanToken c rest
    token.map (fun t => ⟨text.take n, t, c :: rest.take m⟩) :: scan (rest.drop m)
termination_by text.length
decreasing_by
  have := congrArg List.length _h
  simp at this ⊢
  omega

/-- The lexemes of a text in which everything is a token or ignored. -/
def lexemes? (text : List Char) : Option (List Lexeme) := (scan text).mapM id

/-- The lexemes of a text; what is no token is left out. -/
def lexemes (text : List Char) : List Lexeme := (scan text).filterMap id

end TypedQuery.Source
