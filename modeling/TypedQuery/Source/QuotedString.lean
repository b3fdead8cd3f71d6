/-
Quoted strings: the text between double quotes and the value it stands for.
-/

namespace TypedQuery.QuotedString

def hexDigit? (c : Char) : Option Nat :=
  if '0' ≤ c && c ≤ '9' then some (c.toNat - '0'.toNat)
  else if 'a' ≤ c && c ≤ 'f' then some (c.toNat - 'a'.toNat + 10)
  else if 'A' ≤ c && c ≤ 'F' then some (c.toNat - 'A'.toNat + 10)
  else none

/-- The number that hexadecimal digits write; nothing for no digit. -/
def hexValue? (digits : List Char) : Option Nat :=
  if digits.isEmpty then none
  else digits.foldlM (fun n c => (hexDigit? c).map (n * 16 + ·)) 0

/-- The character with code point `n`, if there is one. -/
def scalar? (n : Nat) : Option Char := if n.isValidChar then some (Char.ofNat n) else none

def isHighSurrogate (n : Nat) : Bool := 0xD800 ≤ n && n < 0xDC00

def isLowSurrogate (n : Nat) : Bool := 0xDC00 ≤ n && n < 0xE000

/-- The character that a surrogate pair stands for. -/
def ofSurrogates (high low : Nat) : Char :=
  Char.ofNat (0x10000 + (high - 0xD800) * 0x400 + (low - 0xDC00))

/-- Characters of a refused escape after its `u`: the digits, and the character that is none
unless it is the closing quote. -/
def refusedLength (cs : List Char) : Nat :=
  let digits := ((cs.take 4).takeWhile (hexDigit? · |>.isSome)).length
  match (cs.drop digits).head? with
  | some c => if digits < 4 && c ≠ '"' then digits + 1 else digits
  | none => digits

/-- Reads an escape from what follows its `\u`: the character, and how many characters it took. -/
def unicodeEscape (cs : List Char) : Option Char × Nat :=
  match cs with
  | '\x7b' :: rest =>
    let digits := rest.takeWhile (hexDigit? · |>.isSome)
    match rest.drop digits.length with
    | '\x7d' :: _ => ((hexValue? digits).bind scalar?, digits.length + 2)
    | c :: _ => (none, digits.length + if c = '"' then 1 else 2)
    | [] => (none, digits.length + 1)
  | _ =>
    match if (cs.take 4).length = 4 then hexValue? (cs.take 4) else none with
    | none => (none, refusedLength cs)
    | some n =>
      if isHighSurrogate n then
        match cs.drop 4 with
        | '\\' :: 'u' :: rest =>
          match if (rest.take 4).length = 4 then hexValue? (rest.take 4) else none with
          | some m => if isLowSurrogate m then (some (ofSurrogates n m), 10) else (none, 4)
          | none => (none, 4)
        | _ => (none, 4)
      else (scalar? n, 4)

/-- The value of an escape from what follows its backslash, and how many characters it took. -/
def escape : List Char → Option Char × Nat
  | [] => (none, 0)
  | 'u' :: rest => let (c, n) := unicodeEscape rest; (c, n + 1)
  | c :: _ =>
    let value := match c with
      | '"' | '\\' | '/' => some c
      | 'b' => some '\x08'
      | 'f' => some '\x0c'
      | 'n' => some '\n'
      | 'r' => some '\r'
      | 't' => some '\t'
      | _ => none
    (value, 1)

/-- The value of the text up to the closing quote, and the number of characters up to and with
it. The value is absent when an escape or a line break in the text is refused; the whole is
absent when the text is never closed. -/
def content (cs : List Char) : Option (Option (List Char) × Nat) :=
  match cs with
  | [] => none
  | c :: rest =>
    if c = '"' then some (some [], 1)
    else
      let (value, n) :=
        if c = '\\' then escape rest
        else (if c = '\n' || c = '\r' then none else some c, 0)
      (content (rest.drop n)).map fun (more, m) =>
        (do pure ((← value) :: (← more)), n + 1 + m)
termination_by cs.length
decreasing_by
  simp only [List.length_drop, List.length_cons]
  omega

end TypedQuery.QuotedString
