/-
Character classes. Each class is decided by a few comparisons on ASCII and by a table of the
character standard beyond it, so that a statement about ASCII text never unfolds a table.
-/
import TypedQuery.Text.Stride
import TypedQuery.Text.Unicode.Alphanumeric
import TypedQuery.Text.Unicode.Identifier
import TypedQuery.Text.Unicode.LetterCase
import TypedQuery.Text.Unicode.Visibility

namespace TypedQuery.Text

/-- `ascii` decides below U+0080 and the table from there on. -/
def classOf (ascii : Char → Bool) (table : List Stride) (c : Char) : Bool :=
  if c.toNat < 128 then ascii c else Stride.anyContains table c.toNat

theorem classOf_ascii {ascii : Char → Bool} {table : List Stride} {c : Char} (h : c.toNat < 128) :
    classOf ascii table c = ascii c := by
  simp [classOf, h]

/-- White space of the character standard: the property White_Space. -/
def isWhiteSpace (c : Char) : Bool :=
  let n := c.toNat
  (9 ≤ n && n ≤ 13) || n == 0x20 || n == 0x85 || n == 0xA0 || n == 0x1680 ||
    (0x2000 ≤ n && n ≤ 0x200A) || n == 0x2028 || n == 0x2029 || n == 0x202F || n == 0x205F ||
    n == 0x3000

/-- A letter or a number of any script. -/
def isAlphanumeric : Char → Bool := classOf Char.isAlphanum Unicode.alphanumeric

def isUppercase : Char → Bool := classOf Char.isUpper Unicode.uppercase

def isLowercase : Char → Bool := classOf Char.isLower Unicode.lowercase

/-- A character that can begin an identifier, the underscore apart. -/
def isIdentifierStart : Char → Bool := classOf Char.isAlpha Unicode.identifierStart

/-- A character that can continue an identifier. -/
def isIdentifierContinue : Char → Bool :=
  classOf (fun c => c.isAlphanum || c == '_') Unicode.identifierContinue

/-- A character that attaches to the grapheme in front of it. -/
def extendsGrapheme : Char → Bool := classOf (fun _ => false) Unicode.graphemeExtend

/-- A character with a glyph of its own, the space included. -/
def isPrintable (c : Char) : Bool :=
  if c.toNat < 128 then 32 ≤ c.toNat && c.toNat < 127
  else !Stride.anyContains Unicode.invisible c.toNat

/-- The characters of the full mapping to lower case. -/
def lowercaseOf (c : Char) : List Char :=
  if c.toNat < 128 then [c.toLower]
  else match Unicode.toLowerSpecial.find? (·.1 == c.toNat) with
    | some (_, cs) => cs.map Char.ofNat
    | none => [((Shift.target? Unicode.toLower c.toNat).map Char.ofNat).getD c]

/-- The characters of the full mapping to upper case. -/
def uppercaseOf (c : Char) : List Char :=
  if c.toNat < 128 then [c.toUpper]
  else match Unicode.toUpperSpecial.find? (·.1 == c.toNat) with
    | some (_, cs) => cs.map Char.ofNat
    | none => [((Shift.target? Unicode.toUpper c.toNat).map Char.ofNat).getD c]

end TypedQuery.Text
