/-
Names by words: a text is cut into words at every character that is neither letter nor number
and at changes of letter case, and the words are joined again in one of three styles.

`words` is the cut, `snake`, `shoutySnake` and `upperCamel` are the styles.
-/
import TypedQuery.Text.CharClass

namespace TypedQuery.Text

/-- The letter case of the last cased character since the word began. -/
inductive CaseMode
  | boundary
  | lower
  | upper
deriving DecidableEq, Repr

/-- The mode after `c`; an uncased character keeps it. -/
def CaseMode.after (mode : CaseMode) (c : Char) : CaseMode :=
  if isLowercase c then .lower else if isUppercase c then .upper else mode

/-- The word read so far, if it has any character. -/
def closeWord (reversed : List Char) : List (List Char) :=
  if reversed.isEmpty then [] else [reversed.reverse]

/-- `reversed` holds the characters of the open word, the last one first.

A word ends after a character in lower case if the next one is upper case ("aB" is "a", "B"), and
before one in upper case that follows upper case and precedes lower case ("ABc" is "A", "Bc"). -/
def cutWords (mode : CaseMode) (reversed : List Char) : List Char → List (List Char)
  | [] => closeWord reversed
  | c :: rest =>
    if !isAlphanumeric c then closeWord reversed ++ cutWords .boundary [] rest
    else if mode.after c = .lower && rest.head?.any isUppercase then
      closeWord (c :: reversed) ++ cutWords .boundary [] rest
    else if mode = .upper && isUppercase c && rest.head?.any isLowercase then
      closeWord reversed ++ cutWords .boundary [c] rest
    else cutWords (mode.after c) (c :: reversed) rest

/-- The words of a text, in order. -/
def words (text : List Char) : List (List Char) := cutWords .boundary [] text

/-- A word in lower case. A sigma at its end takes the final form. -/
def lowerWord : List Char → List Char
  | [] => []
  | [c] => if c = 'Σ' then ['ς'] else lowercaseOf c
  | c :: rest => lowercaseOf c ++ lowerWord rest

/-- A word in upper case. -/
def upperWord (word : List Char) : List Char := word.flatMap uppercaseOf

/-- A word with its first character in upper case and the others in lower case. -/
def capitalized : List Char → List Char
  | [] => []
  | c :: rest => uppercaseOf c ++ lowerWord rest

/-- Words in lower case, with an underscore between them. -/
def snake (text : List Char) : List Char := ['_'].intercalate ((words text).map lowerWord)

/-- Words in upper case, with an underscore between them. -/
def shoutySnake (text : List Char) : List Char := ['_'].intercalate ((words text).map upperWord)

/-- Capitalized words, with nothing between them. -/
def upperCamel (text : List Char) : List Char := (words text).flatMap capitalized

end TypedQuery.Text
