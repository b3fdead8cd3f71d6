/-
Type references: a named type under layers of lists and non-null marks.
-/

namespace TypedQuery

inductive TypeRef
  | named (name : String)
  | list (element : TypeRef)
  | nonNull (inner : TypeRef)
deriving DecidableEq, Repr

namespace TypeRef

/-- The innermost name. -/
def baseName : TypeRef → String
  | named n => n
  | list e => e.baseName
  | nonNull t => t.baseName

/-- The outermost layer is a non-null mark. -/
def isNonNull : TypeRef → Bool
  | nonNull _ => true
  | _ => false

/-- The written form: `[Name!]!`. -/
def render : TypeRef → String
  | named n => n
  | list e => "[" ++ e.render ++ "]"
  | nonNull t => t.render ++ "!"

end TypeRef

end TypedQuery
