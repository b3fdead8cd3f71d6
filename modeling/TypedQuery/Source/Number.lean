/-
Numbers of GraphQL source text: an integer part without leading zero, then perhaps a fraction
and an exponent, each with at least one digit, and no name or point directly after.
-/

namespace TypedQuery

def isNameStart (c : Char) : Bool := c.isAlpha || c = '_'

def isNameContinue (c : Char) : Bool := c.isAlphanum || c = '_'

namespace Number

/-- Whether a number is well formed, and how many characters it takes. A refused number takes
the character that spoils it. -/
structure Scan where
  accepted : Bool
  length : Nat
deriving DecidableEq, Repr

def Scan.after (n : Nat) (s : Scan) : Scan := ⟨s.accepted, n + s.length⟩

/-- A refusal by the next character, if there is one. -/
def refused (rest : List Char) : Scan := ⟨false, min 1 rest.length⟩

/-- The end of a number: no point and no name may follow. -/
def finish (rest : List Char) : Scan :=
  if rest.head?.any fun c => c = '.' || isNameStart c then refused rest else ⟨true, 0⟩

/-- At least one digit, then `next` on what follows the digits. -/
def digits (next : List Char → Scan) (cs : List Char) : Scan :=
  let n := (cs.takeWhile Char.isDigit).length
  if n = 0 then refused cs else (next (cs.drop n)).after n

/-- What follows an exponent's letter. -/
def exponentTail (cs : List Char) : Scan :=
  if cs.head?.any fun c => c = '+' || c = '-' then (digits finish cs.tail).after 1
  else digits finish cs

/-- An exponent, or the end. -/
def exponent (cs : List Char) : Scan :=
  if cs.head?.any fun c => c = 'e' || c = 'E' then (exponentTail cs.tail).after 1 else finish cs

/-- A fraction, an exponent, or the end. -/
def fraction (cs : List Char) : Scan :=
  if cs.head? = some '.' then (digits exponent cs.tail).after 1 else exponent cs

/-- The number that begins at the head of `cs`, a digit or a minus sign. -/
def scan (cs : List Char) : Scan :=
  let sign := if cs.head? = some '-' then 1 else 0
  let rest := cs.drop sign
  if rest.head? = some '0' then
    if rest.tail.head?.any Char.isDigit then ⟨false, sign + 2⟩
    else (fraction rest.tail).after (sign + 1)
  else (digits fraction rest).after sign

end Number

end TypedQuery
