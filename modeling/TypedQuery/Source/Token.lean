/-
Tokens of GraphQL source text and the lexemes that carry them.
-/

namespace TypedQuery

/-- A token. Strings carry the value they stand for; a number's text is in its lexeme. -/
inductive Token
  | bang
  | dollar
  | ampersand
  | openParen
  | closeParen
  | spread
  | colon
  | equals
  | atSign
  | openBracket
  | closeBracket
  | openBrace
  | pipe
  | closeBrace
  | name (text : String)
  | number
  | string (value : String)
deriving DecidableEq, Repr

namespace Token

/-- The punctuator that a single character is. -/
def ofPunctuator? : Char → Option Token
  | '!' => some bang
  | '$' => some dollar
  | '&' => some ampersand
  | '(' => some openParen
  | ')' => some closeParen
  | ':' => some colon
  | '=' => some equals
  | '@' => some atSign
  | '[' => some openBracket
  | ']' => some closeBracket
  | '\x7b' => some openBrace
  | '|' => some pipe
  | '\x7d' => some closeBrace
  | _ => none

def isName : Token → Bool
  | name _ => true
  | _ => false

def isString : Token → Bool
  | string _ => true
  | _ => false

/-- A name, or a string that can describe what follows it. -/
def isNameOrString (t : Token) : Bool := t.isName || t.isString

end Token

/-- A token with its text and the ignored text in front of it. -/
structure Lexeme where
  blank : List Char
  token : Token
  text : List Char
deriving DecidableEq, Repr

namespace Lexeme

/-- The text of lexemes in a row, from the first token to the last. -/
def source : List Lexeme → List Char
  | [] => []
  | x :: rest => x.text ++ rest.flatMap fun y => y.blank ++ y.text

end Lexeme

end TypedQuery
