/-
The emitted file: its header and the text of its items.
-/
import TypedQuery.Emission.Item
import TypedQuery.Text.Quoted

namespace TypedQuery.Emission

/-- The literal for a text. -/
def literal (s : String) : String := String.ofList (Text.quoted s.toList)

/-- A text without blanks at its end. -/
def trimBlanks (cs : List Char) : List Char := (cs.reverse.dropWhile (· = ' ')).reverse

/-- How many block comments are open behind a text, where `depth` are open in front of it; nothing
if one is closed that is not open. -/
def openComments? (depth : Nat) : List Char → Option Nat
  | '/' :: '*' :: rest => openComments? (depth + 1) rest
  | '*' :: '/' :: rest =>
    match depth with
    | 0 => none
    | depth + 1 => openComments? depth rest
  | _ :: rest => openComments? depth rest
  | [] => some depth

/-- A text over several lines with no blanks in front of its line ends. -/
def trimLines (cs : List Char) : List Char :=
  let lines := cs.splitOn '\n'
  ['\n'].intercalate (lines.dropLast.map trimBlanks ++ lines.getLast?.toList)

/-- The comment for a documentation text, which begins with a blank. A text over several lines
goes into a block comment, or into an attribute if it would end such a comment. -/
def docComment (doc : String) : String :=
  let cs := doc.toList
  if '\n' ∉ cs then "///" ++ String.ofList (trimBlanks cs)
  else if openComments? 0 cs = some 0 && cs.getLast? ≠ some '/' then
    "/**" ++ String.ofList (trimLines cs) ++ "*/"
  else "#[doc = " ++ literal doc ++ "]"

/-- An attribute with one argument. -/
def attributeLayout (name argument : String) : Layout :=
  .sequence [.text ("#[" ++ name ++ "("), .group [.text argument] false, .text ")]"]

def FieldType.layout : FieldType → Layout
  | host type => type
  | item name => .text name
  | boxed t => .sequence [.text "Box<", .group [t.layout] true, .text ">"]
  | list t => .sequence [.text "Vec<", .group [t.layout] true, .text ">"]
  | option t => .sequence [.text "Option<", .group [t.layout] true, .text ">"]

/-- The derived traits of a structure. -/
def Role.derives : Role → String
  | output => "Debug, Clone, PartialEq, Serialize, Deserialize"
  | input | parameters => "Debug, Clone, PartialEq, Serialize"

/-- The derived traits of an enumeration; one without contents is copied and hashed. -/
def enumDerives (tagged : Bool) : String :=
  if tagged then "Debug, Clone, PartialEq, Serialize, Deserialize"
  else "Debug, Clone, Copy, PartialEq, Eq, Hash, Serialize, Deserialize"

def deriveLine (traits : String) : String := "#[derive(" ++ traits ++ ")]"

/-- Lines inside braces are indented so far. -/
def margin : Nat := Layout.step

/-- A line of text inside braces. -/
def inner (s : String) : String := Layout.line margin (.text s)

/-- The attribute that gives a name on the wire. -/
def renameLine (wire : String) : String :=
  Layout.line margin (attributeLayout "serde" ("rename = " ++ literal wire))

def Field.lines (f : Field) : List String :=
  f.docs.map (fun d => inner (docComment d)) ++
  f.rename?.toList.map renameLine ++
  (if f.skipped then
    [Layout.line margin (attributeLayout "serde" "skip_serializing_if = \"Option::is_none\"")] else []) ++
  (if f.defaulted then [inner "#[serde(default)]"] else []) ++
  [Layout.line margin (.sequence [.text ("pub " ++ f.identifier ++ ": "), f.type.layout, .text ","])]

def EnumVariant.lines (v : EnumVariant) : List String :=
  v.docs.map (fun d => inner (docComment d)) ++ [renameLine v.wire] ++
  [match v.content? with
    | none => inner (v.identifier ++ ",")
    | some content => Layout.line margin
        (.sequence [.text (v.identifier ++ "("), .group [.text content] true, .text "),"])]

/-- The comment on the variant that stands for all other values. -/
def fallbackDoc (tagged : Bool) : String :=
  if tagged then " A runtime type without type-specific selections."
  else " A value added to the schema after generation."

def Item.lines : Item → List String
  | struct role docs name fields =>
    docs.map docComment ++ [deriveLine role.derives] ++
    (if fields.isEmpty then ["pub struct " ++ name ++ " \x7b\x7d"]
      else ["pub struct " ++ name ++ " \x7b"] ++ fields.flatMap Field.lines ++ ["\x7d"])
  | enumeration tagged docs name variants fallback =>
    docs.map docComment ++ [deriveLine (enumDerives tagged)] ++
    (if tagged then ["#[serde(tag = \"__typename\")]"] else []) ++
    ["pub enum " ++ name ++ " \x7b"] ++ variants.flatMap EnumVariant.lines ++
    [inner (docComment (fallbackDoc tagged)), inner "#[serde(other)]", inner (fallback ++ ","), "\x7d"]
  | constant doc name value =>
    [docComment doc, "pub const " ++ name ++ ": &str = " ++ literal value ++ ";"]

/-- The lines in front of the items. -/
def preamble : List String :=
  ["// @generated by gqlshape. Do not edit.", "", "#![allow(dead_code, clippy::all)]",
   "use serde::\x7bDeserialize, Serialize\x7d;"]

/-- The file for a generation. -/
def emit (g : Generation) : Except EmissionError String := do
  let all ← items g
  .ok (String.join ((preamble ++ all.flatMap Item.lines).map (· ++ "\n")))

end TypedQuery.Emission
