/-
String literals of the emitted code: a text between double quotes, in which quotes, backslashes
and characters that do not show are escaped.
-/
import TypedQuery.Text.CharClass

namespace TypedQuery.Text

/-- A natural number in lower-case hexadecimal digits. -/
def hex (n : Nat) : List Char := Nat.toDigits 16 n

/-- The written form of a character by its code point. -/
def codePointEscape (c : Char) : List Char :=
  ['\\', 'u', '\x7b'] ++ hex c.toNat ++ ['\x7d']

/-- The written form of `c`, where `next` follows. A NUL is written `\0`, and with two digits in
front of an octal digit, which would otherwise read as part of it. -/
def escapeChar (c : Char) (next : Option Char) : List Char :=
  if c = '\x00' then
    if next.any fun d => '0' ≤ d && d ≤ '7' then ['\\', 'x', '0', '0'] else ['\\', '0']
  else if c = '\t' then ['\\', 't']
  else if c = '\r' then ['\\', 'r']
  else if c = '\n' then ['\\', 'n']
  else if c = '"' || c = '\\' then ['\\', c]
  else if extendsGrapheme c || !isPrintable c then codePointEscape c
  else [c]

/-- The characters between the quotes of a literal. -/
def escape : List Char → List Char
  | [] => []
  | c :: rest => escapeChar c rest.head? ++ escape rest

/-- The literal whose value is `text`. -/
def quoted (text : List Char) : List Char := '"' :: escape text ++ ['"']

end TypedQuery.Text
