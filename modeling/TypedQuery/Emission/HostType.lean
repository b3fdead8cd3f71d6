/-
Type expressions of the host language: reading one, with the spacing in which it is printed. What
is read is a layout, so that long generic arguments can be broken.

The parts of a type are types again. Every reader here takes the reader of those as `type`, whose
argument says whether plus signs may join further bounds to a type (`several`).
-/
import TypedQuery.Emission.HostToken.Parser

namespace TypedQuery.Emission.HostType

/-- Words that name no type and no module. -/
def nonNames : List String :=
  ["_", "abstract", "as", "async", "await", "become", "box", "break", "const", "continue", "do",
   "dyn", "else", "enum", "extern", "false", "final", "fn", "for", "if", "impl", "in", "let",
   "loop", "macro", "match", "mod", "move", "mut", "override", "priv", "pub", "ref", "return",
   "static", "struct", "trait", "true", "try", "type", "typeof", "unsafe", "unsized", "use",
   "virtual", "where", "while", "yield"]

/-- Words of a path that stand for modules; they take no arguments in angle brackets. -/
def moduleWords : List String := ["self", "super", "crate"]

/-- A name of a type or module. -/
def name : Parser String := do
  match ← peek with
  | some (.word w) =>
    if w ∈ nonNames then failure
    skip
    return w
  | _ => failure

/-! ## Constants -/

/-- Operators between the operands of a constant. -/
def operators : List (List Char) :=
  [['<', '<'], ['>', '>'], ['+'], ['-'], ['*'], ['/'], ['%'], ['^'], ['&'], ['|']]

/-- Takes an operator if one is next. -/
def operator? : Parser (Option String) := do
  let tokens ← get
  let found := operators.find? fun
    | [c, d] => isPair c d tokens
    | [c] => isMark c tokens.head?
    | _ => false
  match found with
  | some op =>
    set (tokens.drop op.length)
    return some (String.ofList op)
  | none => return none

/-- A path of names. -/
def namePath : Nat → Parser String
  | 0 => failure
  | fuel + 1 => do
    let n ← name
    if ← acceptPair ':' ':' then return n ++ "::" ++ (← namePath fuel) else return n

/-- Operands with operators between them, where `operand` reads one. -/
def operation (operand : Parser String) : Nat → Parser String
  | 0 => failure
  | fuel + 1 => do
    let first ← operand
    match ← operator? with
    | some op => return first ++ " " ++ op ++ " " ++ (← operation operand fuel)
    | none => return first

/-- An operand of a constant: a literal, a truth value, a path, or another constant behind a sign
or between brackets. -/
def operand : Nat → Parser String
  | 0 => failure
  | fuel + 1 => do
    match ← peek with
    | some (.literal l) =>
      skip
      return l
    | some (.word w) =>
      if w = "true" || w = "false" then
        skip
        return w
      else namePath fuel
    | _ =>
      if ← accept '-' then return "-" ++ (← operand fuel)
      else if ← accept '!' then return "!" ++ (← operand fuel)
      else if ← accept '(' then
        let inner ← operation (operand fuel) fuel
        expect ')'
        return "(" ++ inner ++ ")"
      else if ← accept '\x7b' then
        let inner ← operation (operand fuel) fuel
        expect '\x7d'
        return "\x7b " ++ inner ++ " \x7d"
      else failure

/-- A constant expression. Every operand and every sign takes a token. -/
def constant : Parser Layout := do
  let fuel := (← get).length + 1
  return .text (← operation (operand fuel) fuel)

/-- The next token begins a constant and no type. -/
def isConstantNext : Parser Bool := do
  match ← peek, ← peekSecond with
  | some (.literal _), _ => return true
  | some (.word w), _ => return w = "true" || w = "false"
  | some (.mark '-' _), some (.literal _) => return true
  | some (.mark '\x7b' _), _ => return true
  | _, _ => return false

/-- A constant between angle brackets: one operand, which stands alone. -/
def constantArgument : Parser Layout := do return .text (← operand ((← get).length + 1))

/-! ## Paths and bounds -/

/-- A segment of a path. One without angle brackets is `callable`: arguments in parentheses may
follow it. -/
structure Segment where
  layout : Layout
  callable : Bool

/-- A result type after an arrow, if one is next. -/
def result? (type : Bool → Parser Layout) : Parser Layout := do
  if ← acceptPair '-' '>' then return .sequence [.text " -> ", ← type false] else return blank

/-- Arguments in parentheses with a result type, if they are next. -/
def callArguments? (type : Bool → Parser Layout) : Parser Layout := do
  dropColonsBefore '('
  if ← accept '(' then
    let (arguments, _) ← list ')' (type true)
    return .sequence [bracketed "(" arguments ")", ← result? type]
  else return blank

/-- What follows the first segment of a path. -/
def pathRest (type : Bool → Parser Layout) (segment : Parser Segment) : Nat → Segment → Parser Layout
  | 0, _ => failure
  | fuel + 1, s => do
    let arguments ← if s.callable then callArguments? type else pure blank
    if ← acceptPair ':' ':' then
      return .sequence [s.layout, arguments, .text "::", ← pathRest type segment fuel (← segment)]
    else return .sequence [s.layout, arguments]

/-- A path from its next segment on. Every segment takes a token, so there are no more segments
than tokens. -/
def segments (type : Bool → Parser Layout) (segment : Parser Segment) : Parser Layout := do
  pathRest type segment ((← get).length + 1) (← segment)

/-- A path, perhaps with a double colon in front. -/
def path (type : Bool → Parser Layout) (segment : Parser Segment) : Parser Layout := do
  let leading := if ← acceptPair ':' ':' then "::" else ""
  return .sequence [.text leading, ← segments type segment]

/-- Lifetimes that a type or a bound is for, if the word `for` is next. -/
def quantifier? : Parser (Option Layout) := do
  if ← acceptWord "for" then
    expect '<'
    let (lifetimes, _) ← list '>' do
      match ← lifetime? with
      | some l => return l
      | none => failure
    return some (.text ("for<" ++ ", ".intercalate lifetimes ++ "> "))
  else return none

/-- A bound. -/
structure Bound where
  layout : Layout
  isLifetime : Bool

/-- A trait bound without parentheses. -/
def traitBound (type : Bool → Parser Layout) (segment : Parser Segment) : Parser Layout := do
  let quantifier := (← quantifier?).getD blank
  let mark := if ← accept '?' then "?" else ""
  return .sequence [quantifier, .text mark, ← path type segment]

def bound (type : Bool → Parser Layout) (segment : Parser Segment) : Parser Bound := do
  match ← lifetime? with
  | some l => return ⟨.text l, true⟩
  | none =>
    if ← accept '(' then
      let inner ← traitBound type segment
      expect ')'
      return ⟨.sequence [.text "(", inner, .text ")"], false⟩
    else return ⟨← traitBound type segment, false⟩

/-- The next token can begin a bound. -/
def isBoundNext : Parser Bool := do
  match ← peek with
  | some (.word _) | some (.lifetime _) => return true
  | t? => return isMark '?' t? || isMark '(' t? || isPair ':' ':' (← get)

/-- Further bounds behind plus signs. A plus sign at the end joins nothing. -/
def moreBounds (type : Bool → Parser Layout) (segment : Parser Segment) : Nat → Parser (List Bound)
  | 0 => failure
  | fuel + 1 => do
    if ← accept '+' then
      if ← isBoundNext then return (← bound type segment) :: (← moreBounds type segment fuel)
      else return []
    else return []

/-- The type of all values within bounds, from behind the first of them. One bound has to be a
trait. -/
def boundedType (keyword : String) (type : Bool → Parser Layout) (segment : Parser Segment)
    (several : Bool) (first : Bound) : Parser Layout := do
  let more ← if several then moreBounds type segment ((← get).length + 1) else pure []
  let all := first :: more
  if all.all (·.isLifetime) then failure
  return .sequence [.text keyword, joined " + " (all.map (·.layout))]

/-- A type that begins with a path, from behind the path. With further bounds it is the type of
all values within them. -/
def afterPath (type : Bool → Parser Layout) (segment : Parser Segment) (several : Bool)
    (path : Layout) : Parser Layout := do
  if several && isMark '+' (← peek) then boundedType "dyn " type segment true ⟨path, false⟩
  else return path

/-! ## Arguments -/

/-- An argument between angle brackets. Lifetimes are printed before all others. -/
structure Argument where
  layout : Layout
  isLifetime : Bool

/-- What an associated item is equal to. -/
def associatedValue (type : Bool → Parser Layout) : Parser Layout := do
  if ← isConstantNext then constantArgument else type true

/-- The bounds of an associated item, perhaps none. -/
def associatedBounds (type : Bool → Parser Layout) (segment : Parser Segment) : Parser Layout := do
  if isMark ',' (← peek) || isMark '>' (← peek) then return blank
  let first ← bound type segment
  let more ← moreBounds type segment ((← get).length + 1)
  return .sequence [.text ": ", joined " + " ((first :: more).map (·.layout))]

/-- An argument that begins with a path: a type, or an associated item with its value or its
bounds. -/
def pathArgument (type : Bool → Parser Layout) (segment : Parser Segment) : Parser Layout := do
  let first ← segment
  if ← accept '=' then
    return .sequence [first.layout, .text " = ", ← associatedValue type]
  else if isMark ':' (← peek) && !isPair ':' ':' (← get) then
    skip
    return .sequence [first.layout, ← associatedBounds type segment]
  else
    afterPath type segment true (← pathRest type segment ((← get).length + 1) first)

def argument (type : Bool → Parser Layout) (segment : Parser Segment) : Parser Argument := do
  match ← peek, ← peekSecond with
  | some (.lifetime l), second? =>
    if isMark '+' second? then return ⟨← type true, false⟩
    else
      skip
      return ⟨.text ("'" ++ l), true⟩
  | some (.word w), _ =>
    if w = "true" || w = "false" then return ⟨← constantArgument, false⟩
    else if w ∈ nonNames then return ⟨← type true, false⟩
    else return ⟨← pathArgument type segment, false⟩
  | _, _ =>
    if ← isConstantNext then return ⟨← constantArgument, false⟩
    else return ⟨← type true, false⟩

/-- Lifetimes before all others. -/
def printedOrder (arguments : List Argument) : List Layout :=
  (arguments.filter (·.isLifetime) ++ arguments.filter (!·.isLifetime)).map (·.layout)

/-- A segment of a path with at most so many paths inside each other. Empty angle brackets are
not printed. -/
def segment (type : Bool → Parser Layout) : Nat → Parser Segment
  | 0 => failure
  | fuel + 1 => do
    let n ← name
    if n ∈ moduleWords then return ⟨.text n, true⟩
    dropColonsBefore '<'
    if ← accept '<' then
      let (arguments, _) ← list '>' (argument type (segment type fuel))
      let layout := if arguments.isEmpty then blank else bracketed "<" (printedOrder arguments) ">"
      return ⟨.sequence [.text n, layout], arguments.isEmpty⟩
    else return ⟨.text n, true⟩

/-! ## Types -/

/-- A parameter of a function type, perhaps with a name that is kept. -/
def parameter (type : Bool → Parser Layout) : Parser Layout := do
  match ← get with
  | .word w :: .mark ':' joint :: rest =>
    if joint && isMark ':' rest.head? then type true
    else if w ≠ "_" && w ∈ nonNames then failure
    else
      set rest
      return .sequence [.text (w ++ ": "), ← type true]
  | _ => type true

/-- The name of a calling convention, if one is next. -/
def convention? : Parser String := do
  match ← peek with
  | some (.literal l) =>
    if l.toList.head? ≠ some '"' then failure
    skip
    return l ++ " "
  | _ => return ""

/-- A function type. -/
def functionType (type : Bool → Parser Layout) (quantifier : Layout) : Parser Layout := do
  let safety := if ← acceptWord "unsafe" then "unsafe " else ""
  let convention ← if ← acceptWord "extern" then do pure ("extern " ++ (← convention?)) else pure ""
  unless ← acceptWord "fn" do failure
  expect '('
  let (parameters, _) ← list ')' (parameter type)
  return .sequence [quantifier, .text (safety ++ convention), bracketed "fn(" parameters ")",
    ← result? type]

/-- The next token begins a function type. -/
def isFunctionNext (t? : Option HostToken) : Bool :=
  t? = some (.word "fn") || t? = some (.word "unsafe") || t? = some (.word "extern")

/-- A type between parentheses, or a tuple. -/
def parenthesized (type : Bool → Parser Layout) : Parser Layout := do
  let (parts, comma) ← list ')' (type true)
  match parts, comma with
  | [part], false => return .sequence [.text "(", part, .text ")"]
  | [part], true =>
    return .sequence [.text "(", .group [.sequence [part, .text ","]] false, .text ")"]
  | parts, _ => return bracketed "(" parts ")"

/-- A slice or an array, from behind its bracket. -/
def sliceType (type : Bool → Parser Layout) : Parser Layout := do
  let element ← type true
  let length ← if ← accept ';' then do pure (Layout.sequence [.text "; ", ← constant]) else pure blank
  expect ']'
  return .sequence [.text "[", element, length, .text "]"]

def referenceType (type : Bool → Parser Layout) : Parser Layout := do
  let lifetime := ((← lifetime?).map (· ++ " ")).getD ""
  let mutability := if ← acceptWord "mut" then "mut " else ""
  return .sequence [.text ("&" ++ lifetime ++ mutability), ← type false]

def pointerType (type : Bool → Parser Layout) : Parser Layout := do
  if ← acceptWord "const" then return .sequence [.text "*const ", ← type false]
  else if ← acceptWord "mut" then return .sequence [.text "*mut ", ← type false]
  else failure

/-- An associated type of a type, perhaps as it is for a trait, from behind its angle bracket. -/
def associatedType (type : Bool → Parser Layout) (segment : Parser Segment) : Parser Layout := do
  let self ← type true
  let trait ← if ← acceptWord "as" then do pure (Layout.sequence [.text " as ", ← path type segment])
    else pure blank
  expect '>'
  unless ← acceptPair ':' ':' do failure
  return .sequence [.text "<", self, trait, .text ">::", ← segments type segment]

/-- A type whose parts `type` reads. -/
def typeOver (type : Bool → Parser Layout) (segment : Parser Segment) (several : Bool) :
    Parser Layout := do
  match ← quantifier? with
  | some quantifier =>
    if isFunctionNext (← peek) then functionType type quantifier
    else
      let first := Layout.sequence [quantifier, ← segments type segment]
      boundedType "dyn " type segment several ⟨first, false⟩
  | none =>
    let next? ← peek
    if isFunctionNext next? then functionType type blank
    else match next? with
      | some (.lifetime _) => boundedType "dyn " type segment true (← bound type segment)
      | some (.word "_") =>
        skip
        return .text "_"
      | some (.word "dyn") =>
        skip
        boundedType "dyn " type segment several (← bound type segment)
      | some (.word "impl") =>
        skip
        boundedType "impl " type segment several (← bound type segment)
      | _ =>
        if ← accept '(' then parenthesized type
        else if ← accept '[' then sliceType type
        else if ← accept '&' then referenceType type
        else if ← accept '*' then pointerType type
        else if ← accept '!' then return .text "!"
        else if ← accept '<' then associatedType type segment
        else afterPath type segment several (← path type segment)

/-- A type with at most so many types inside each other. -/
def type : Nat → Bool → Parser Layout
  | 0, _ => failure
  | fuel + 1, several => typeOver (type fuel) (segment (type fuel) fuel) several

/-- The type that a text writes, and nothing else. Types inside each other take a token each. -/
def read? (text : String) : Option Layout := do
  let tokens ← HostToken.tokens? text
  let (layout, rest) ← (type (tokens.length + 1) true).run tokens
  if rest.isEmpty then some layout else none

end TypedQuery.Emission.HostType
