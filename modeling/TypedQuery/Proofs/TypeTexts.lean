/-
The text of emitted types. A layout is known by its text on one line (`flat`):
where it is broken, only line breaks, blanks and commas are put in
(`ink_render`), and where it is not, that is its text (`render_eq_flat`). On one
line, boxes, lists and optional types are written around the text of what is in
them (`flat_boxed`, `flat_list`, `flat_option`), and a field is written with its
type in the last of its lines (`declares`).
-/
import TypedQuery.Emission
import Mathlib.Data.List.Basic

namespace TypedQuery.Emission

namespace Layout

/-! ## Breaking lines -/

/-- The characters of a text but blanks, line breaks and commas, which breaking a group puts in or leaves out. -/
def ink (s : String) : List Char := s.toList.filter fun c => c ≠ ' ' && c ≠ '\n' && c ≠ ','

@[simp] theorem ink_append (s t : String) : ink (s ++ t) = ink s ++ ink t := by
  rw [ink, String.toList_append, List.filter_append, ink, ink]

@[simp] theorem ink_comma : ink "," = [] := rfl

theorem ink_join (l : List String) : ink (String.join l) = l.flatMap ink := by
  induction l with
  | nil => rfl
  | cons s l ih => rw [String.join_cons, ink_append, ih, List.flatMap_cons]

theorem ink_intercalate (l : List String) : ink (", ".intercalate l) = l.flatMap ink := by
  induction l with
  | nil => rfl
  | cons s l ih =>
    cases l with
    | nil => simp
    | cons t l =>
      have hcomma : ink ", " = [] := rfl
      simp only [String.intercalate_cons_cons, ink_append, ih, hcomma, List.append_nil, List.flatMap_cons]

@[simp] theorem ink_newline (indent : Nat) : ink (newline indent) = [] := by
  simp [ink, newline]

/-- The first part is written up to where the others begin. -/
theorem renderAll_cons (indent used after : Nat) (l : Layout) (rest : List Layout) :
    (renderAll indent used after (l :: rest)).1 = (render indent used (leadAll after rest) l).1 ++
      (renderAll indent (render indent used (leadAll after rest) l).2 after rest).1 := by
  rw [renderAll]

mutual

/-- **Breaking a layout over lines keeps its text**, but for blanks, line breaks and commas. -/
theorem ink_render (indent used after : Nat) : ∀ l : Layout, ink (render indent used after l).1 = ink l.flat
  | text s => by rw [render, flat]
  | sequence parts => by rw [render, flat, ink_join, ink_renderAll]
  | group items trailing => by
    rw [render]
    split
    · rfl
    · rw [ink_append, ink_newline, List.append_nil, ink_renderItems, flat, ink_intercalate]

theorem ink_renderAll (indent used after : Nat) :
    ∀ parts : List Layout, ink (renderAll indent used after parts).1 = (flatAll parts).flatMap ink
  | [] => rfl
  | l :: rest => by rw [renderAll_cons, ink_append, ink_render, ink_renderAll, flatAll, List.flatMap_cons]

theorem ink_renderItems (indent : Nat) (trailing : Bool) :
    ∀ items : List Layout, ink (renderItems indent trailing items) = (flatAll items).flatMap ink
  | [] => rfl
  | [l] => by
    have hlast : ink (if trailing then "," else "") = [] := by
      cases trailing <;> rfl
    rw [renderItems, ink_append, ink_append, ink_newline, ink_render, hlast, flatAll, flatAll]
    simp
  | l :: m :: rest => by
    have hrest := ink_renderItems indent trailing (m :: rest)
    simp only [renderItems, ink_append, ink_newline, ink_render, ink_comma, hrest, flatAll, List.flatMap_cons,
      List.nil_append, List.append_nil]

end

mutual

/-- A layout that is not broken is written as on one line. -/
theorem render_eq_flat (indent used after : Nat) :
    ∀ l : Layout, '\n' ∉ (render indent used after l).1.toList → (render indent used after l).1 = l.flat
  | text s, _ => by rw [render, flat]
  | sequence parts, h => by
    rw [render] at h ⊢
    rw [renderAll_eq_join indent used after parts h, flat]
  | group items trailing, h => by
    rw [render] at h ⊢
    split
    next => rfl
    next hwide =>
      rw [if_neg hwide] at h
      exact absurd (by simp [newline]) h

theorem renderAll_eq_join (indent used after : Nat) :
    ∀ parts : List Layout, '\n' ∉ (renderAll indent used after parts).1.toList →
      (renderAll indent used after parts).1 = String.join (flatAll parts)
  | [], _ => rfl
  | l :: rest, h => by
    rw [renderAll_cons, String.toList_append, List.mem_append, not_or] at h
    rw [renderAll_cons, flatAll, String.join_cons, render_eq_flat _ _ _ l h.1, renderAll_eq_join _ _ _ rest h.2]

end

end Layout

/-! ## Types on one line -/

section flat

variable (t : FieldType)

@[simp] theorem flat_item (name : String) : (FieldType.item name).layout.flat = name := by
  rw [FieldType.layout, Layout.flat]

/-- The text of a type constructor around a type. -/
theorem flat_enclosed (front : String) (l : Layout) :
    (Layout.sequence [.text front, .group [l] true, .text ">"]).flat = front ++ l.flat ++ ">" := by
  simp [Layout.flat, Layout.flatAll, String.join_cons, String.append_assoc]

@[simp] theorem flat_boxed : t.boxed.layout.flat = "Box<" ++ t.layout.flat ++ ">" := flat_enclosed _ _

@[simp] theorem flat_list : t.list.layout.flat = "Vec<" ++ t.layout.flat ++ ">" := flat_enclosed _ _

@[simp] theorem flat_option : t.option.layout.flat = "Option<" ++ t.layout.flat ++ ">" := flat_enclosed _ _

end flat

/-! ## Fields -/

/-- The text of the field ends in its identifier and the type `type`, which may be broken over lines. -/
def Field.Declares (f : Field) (type : String) : Prop :=
  ∃ typed, f.lines.getLast? = some ("    pub " ++ f.identifier ++ ": " ++ typed ++ ",") ∧
    Layout.ink typed = Layout.ink type ∧ ('\n' ∉ typed.toList → typed = type)

theorem Field.declares (f : Field) : f.Declares f.type.layout.flat := by
  let typed := Layout.render margin (Layout.width ("pub " ++ f.identifier ++ ": ")) (Layout.width ",") f.type.layout
  have hindent : String.ofList (List.replicate margin ' ') = "    " := rfl
  have hfront : "    pub " = "    " ++ "pub " := rfl
  refine ⟨typed.1, ?_, Layout.ink_render _ _ _ _, Layout.render_eq_flat _ _ _ _⟩
  rw [Field.lines, List.getLast?_concat, Layout.line, Layout.render, hindent, hfront]
  simp only [Layout.renderAll, Layout.render, Layout.leadAll, Layout.lead, Nat.zero_add, Nat.add_zero,
    String.append_empty, String.append_assoc, typed]

/-- The fields of a structure are written in its text. -/
theorem lines_struct (role : Role) (docs : List String) (name : String) (fields : List Field) :
    fields.flatMap Field.lines <:+: (Item.struct role docs name fields).lines := by
  rw [Item.lines]
  split
  next hnone => simp [List.isEmpty_iff.1 hnone]
  next =>
    refine ⟨docs.map docComment ++ [deriveLine role.derives] ++ ["pub struct " ++ name ++ " \x7b"], ["\x7d"], ?_⟩
    simp

end TypedQuery.Emission
