/-
What the scan of a description comes upon, piece by piece. `pieces` cuts a
text as the scan does: a piece is a character that stays, a bracketed word
that becomes code, or a web address that goes between angle brackets. What
stood there before (`sourceOf`) and what stands there afterwards
(`writtenOf`) is put together from the pieces; so whatever holds of each piece
holds of the whole text, as that nothing is lost but marks
(`unmarked_sanitize`).
-/
import TypedQuery.Emission.DocComment
import Mathlib.Data.List.Basic
import Mathlib.Data.List.TakeWhile

namespace TypedQuery.Emission

/-! ## Where words and addresses end -/

/-- A web address begins with one of two schemes, and nothing in it ends it. -/
def IsAddress (u : List Char) : Prop :=
  ("https://".toList <+: u ∨ "http://".toList <+: u) ∧ ∀ c ∈ u, endsAddress c = false

theorem IsAddress.exists_cons {u : List Char} (h : IsAddress u) : ∃ u', u = 'h' :: u' := by
  obtain ⟨⟨v, rfl⟩ | ⟨v, rfl⟩, -⟩ := h
  · exact ⟨_, rfl⟩
  · exact ⟨_, rfl⟩

theorem drop_length_takeWhile {α : Type} (p : α → Bool) (l : List α) :
    l.drop (l.takeWhile p).length = l.dropWhile p := by
  induction l with
  | nil => rfl
  | cons a l ih => cases h : p a <;> simp [h, ih]

theorem take_length_takeWhile {α : Type} (p : α → Bool) (l : List α) :
    l.take (l.takeWhile p).length = l.takeWhile p :=
  (List.prefix_iff_eq_take.1 (List.takeWhile_prefix p)).symm

theorem of_mem_head?_dropWhile {α : Type} {p : α → Bool} {l : List α} {a : α} (h : a ∈ (l.dropWhile p).head?) :
    p a = false := by
  have hnot := List.head?_dropWhile_not p l
  rw [Option.mem_def.1 h] at hnot
  exact hnot

/-- A bracketed word ends at the first bracket that closes, and no link begins there. -/
theorem bracketed?_eq_some {cs w : List Char} (h : bracketed? cs = some w) :
    ∃ rest, cs = w ++ ']' :: rest ∧ ']' ∉ w ∧ rest.head? ≠ some '(' := by
  unfold bracketed? at h
  dsimp only at h
  rw [drop_length_takeWhile] at h
  split at h
  next c rest hdrop =>
    split at h
    next => cases h
    next hcond =>
      simp only [Bool.or_eq_true, decide_eq_true_eq, not_or] at hcond
      cases h
      have hc : c = ']' := by
        have := of_mem_head?_dropWhile (p := (· ≠ ']')) (l := cs) (a := c) (by rw [hdrop]; rfl)
        simpa using this
      subst hc
      refine ⟨rest, ?_, fun hmem => ?_, hcond.2⟩
      · rw [← hdrop, List.takeWhile_append_dropWhile]
      · simpa using List.mem_takeWhile_imp hmem
  next => cases h

/-- A web address goes on as far as it can. -/
theorem addressLength?_eq_some {cs : List Char} {n : Nat} (h : addressLength? cs = some n) :
    IsAddress (cs.take n) ∧ ∀ c ∈ (cs.drop n).head?, endsAddress c = true := by
  unfold addressLength? at h
  split at h
  next hscheme =>
    cases h
    rw [take_length_takeWhile, drop_length_takeWhile]
    have hwhole : ∀ {v : List Char}, v.all (!endsAddress ·) = true → v <+: cs →
        v <+: cs.takeWhile (!endsAddress ·) := by
      rintro v hv ⟨rest, rfl⟩
      rw [List.takeWhile_append_of_pos (List.all_eq_true.1 hv)]
      exact List.prefix_append _ _
    refine ⟨⟨?_, fun c hc => ?_⟩, fun c hc => ?_⟩
    · simp only [Bool.or_eq_true, List.isPrefixOf_iff_prefix] at hscheme
      exact hscheme.imp (hwhole rfl) (hwhole rfl)
    · simpa using List.mem_takeWhile_imp hc
    · simpa using of_mem_head?_dropWhile hc
  next => cases h

/-! ## Pieces -/

/-- A character that stays, a bracketed word that becomes code, or a web address that is put between angle brackets. -/
inductive Piece
  | kept (c : Char)
  | word (w : List Char)
  | address (u : List Char)
deriving DecidableEq, Repr

namespace Piece

/-- What the scan comes upon. -/
def source : Piece → List Char
  | kept c => [c]
  | word w => '[' :: w ++ [']']
  | address u => u

/-- What is written in its place. -/
def written : Piece → List Char
  | kept c => [c]
  | word w => '\x60' :: w ++ ['\x60']
  | address u => '<' :: u ++ ['>']

@[simp] theorem length_source_kept (c : Char) : (kept c).source.length = 1 := rfl

def sourceOf (ps : List Piece) : List Char := ps.flatMap source

def writtenOf (ps : List Piece) : List Char := ps.flatMap written

section lists

variable {p : Piece} {ps qs : List Piece}

@[simp] theorem sourceOf_nil : sourceOf [] = [] := rfl
@[simp] theorem sourceOf_cons : sourceOf (p :: ps) = p.source ++ sourceOf ps := rfl
@[simp] theorem sourceOf_append : sourceOf (ps ++ qs) = sourceOf ps ++ sourceOf qs := List.flatMap_append
@[simp] theorem writtenOf_nil : writtenOf [] = [] := rfl
@[simp] theorem writtenOf_cons : writtenOf (p :: ps) = p.written ++ writtenOf ps := rfl
@[simp] theorem writtenOf_append : writtenOf (ps ++ qs) = writtenOf ps ++ writtenOf qs := List.flatMap_append

@[simp] theorem sourceOf_kept (cs : List Char) : sourceOf (cs.map kept) = cs := by
  induction cs with
  | nil => rfl
  | cons c cs ih => simp [source, ih]

@[simp] theorem writtenOf_kept (cs : List Char) : writtenOf (cs.map kept) = cs := by
  induction cs with
  | nil => rfl
  | cons c cs ih => simp [written, ih]

end lists

end Piece

open Piece (sourceOf writtenOf)

/-- The pieces of a text. An address behind an angle bracket stays, character by character. -/
def pieces (opened : Bool) (cs : List Char) : List Piece :=
  match cs with
  | [] => []
  | c :: rest =>
    if c = '[' then
      match bracketed? rest with
      | some w => .word w :: pieces false (rest.drop (w.length + 1))
      | none => .kept c :: pieces false rest
    else
      match addressLength? (c :: rest) with
      | some n =>
        let u := c :: rest.take (n - 1)
        (if opened then u.map .kept else [.address u]) ++ pieces false (rest.drop (n - 1))
      | none => .kept c :: pieces (c = '<') rest
termination_by cs.length

theorem writtenOf_pieces (opened : Bool) (cs : List Char) : writtenOf (pieces opened cs) = sanitizeFrom opened cs := by
  fun_induction pieces opened cs with
  | case1 => simp [sanitizeFrom]
  | case2 opened rest w hw ih => simp [sanitizeFrom, hw, ih, Piece.written]
  | case3 opened rest hw ih => simp [sanitizeFrom, hw, ih, Piece.written]
  | case4 opened c rest hc n hn u ih =>
    rw [sanitizeFrom, if_neg hc, hn]
    cases opened with
    | true => rw [if_pos rfl, Piece.writtenOf_append, Piece.writtenOf_kept, ih]; rfl
    | false => simp [ih, Piece.written, u]
  | case5 opened c rest hc hn ih =>
    rw [sanitizeFrom, if_neg hc, hn]
    simp [ih, Piece.written]

/-- A piece may stand before `rest`. -/
def Piece.Fits : Piece → List Char → Prop
  | kept _, _ => True
  | word w, rest => ']' ∉ w ∧ rest.head? ≠ some '('
  | address u, rest => IsAddress u ∧ ∀ c ∈ rest.head?, endsAddress c = true

/-- Pieces each of which may stand before the text that the others leave. -/
inductive Reads : List Piece → Prop
  | nil : Reads []
  | cons {p ps} (hp : p.Fits (sourceOf ps)) (h : Reads ps) : Reads (p :: ps)

theorem Reads.kept {ps : List Piece} (h : Reads ps) (cs : List Char) : Reads (cs.map .kept ++ ps) := by
  induction cs with
  | nil => exact h
  | cons c cs ih => exact .cons trivial ih

theorem Reads.of_cons {ps : List Piece} {p : Piece} (h : Reads (p :: ps)) : Reads ps := by
  cases h with
  | cons _ h => exact h

theorem Reads.suffix {front ps : List Piece} (h : Reads (front ++ ps)) : Reads ps := by
  induction front with
  | nil => exact h
  | cons p front ih => exact ih h.of_cons

theorem Reads.fits {front ps : List Piece} {p : Piece} (h : Reads (front ++ p :: ps)) : p.Fits (sourceOf ps) := by
  cases h.suffix with
  | cons hp _ => exact hp

/-- The scan cuts a text into pieces that it is made of. -/
theorem pieces_spec (opened : Bool) (cs : List Char) :
    sourceOf (pieces opened cs) = cs ∧ Reads (pieces opened cs) := by
  fun_induction pieces opened cs with
  | case1 => exact ⟨rfl, .nil⟩
  | case2 opened rest w hw ih =>
    obtain ⟨rest', rfl, hclose, hlink⟩ := bracketed?_eq_some hw
    have hdrop : (w ++ ']' :: rest').drop (w.length + 1) = rest' := by simp
    rw [hdrop] at ih ⊢
    exact ⟨by simp [Piece.source, ih.1], .cons ⟨hclose, ih.1.symm ▸ hlink⟩ ih.2⟩
  | case3 opened rest hw ih => exact ⟨by simp [Piece.source, ih.1], .cons trivial ih.2⟩
  | case4 opened c rest hc n hn u ih =>
    obtain ⟨haddress, hend⟩ := addressLength?_eq_some hn
    obtain ⟨k, rfl⟩ : ∃ k, n = k + 1 := by
      refine Nat.exists_eq_succ_of_ne_zero ?_
      rintro rfl
      obtain ⟨u', hu'⟩ := haddress.exists_cons
      cases hu'
    have hsource : u ++ rest.drop k = c :: rest := by simp [u]
    rw [Nat.add_sub_cancel] at ih ⊢
    cases opened with
    | true => exact ⟨by simpa [ih.1] using hsource, ih.2.kept u⟩
    | false => exact ⟨by simpa [Piece.source, ih.1] using hsource, .cons ⟨haddress, ih.1.symm ▸ hend⟩ ih.2⟩
  | case5 opened c rest hc hn ih => exact ⟨by simp [Piece.source, ih.1], .cons trivial ih.2⟩

theorem Reads.length_le {ps : List Piece} (h : Reads ps) : ps.length ≤ (sourceOf ps).length := by
  induction h with
  | nil => rfl
  | @cons p ps hp _ ih =>
    have hpos : 0 < p.source.length := by
      cases p with
      | kept | word => simp [Piece.source]
      | address u =>
        obtain ⟨u', rfl⟩ := hp.1.exists_cons
        simp [Piece.source]
    rw [Piece.sourceOf_cons, List.length_append, List.length_cons]
    omega

/-! ## What stays -/

/-- The characters that the scan puts in or takes away. -/
def isMark (c : Char) : Bool := c = '[' || c = ']' || c = '<' || c = '>' || c = '\x60'

/-- A text without its marks. -/
def unmarked (cs : List Char) : List Char := cs.filter (!isMark ·)

@[simp] theorem unmarked_append (a b : List Char) : unmarked (a ++ b) = unmarked a ++ unmarked b :=
  List.filter_append ..

theorem unmarked_mark {c : Char} (h : isMark c = true) (cs : List Char) : unmarked (c :: cs) = unmarked cs :=
  List.filter_cons_of_neg (by simp [h])

theorem unmarked_cons {c : Char} (h : isMark c = false) (cs : List Char) : unmarked (c :: cs) = c :: unmarked cs :=
  List.filter_cons_of_pos (by simp [h])

/-- `b` has what `a` has, marks apart; angle brackets come in pairs, and square ones only go. -/
structure Alike (a b : List Char) : Prop where
  unmarked : unmarked b = unmarked a
  angles : b.count '<' + a.count '>' = a.count '<' + b.count '>'
  brackets : b.count '[' ≤ a.count '['

theorem Alike.refl (a : List Char) : Alike a a := ⟨rfl, rfl, le_rfl⟩

theorem mem_of_alike {a b : List Char} {c : Char} (h : Alike a b) (hc : isMark c = false) (hb : c ∈ b) : c ∈ a := by
  have hmem : c ∈ unmarked b := List.mem_filter.2 ⟨hb, by simp [hc]⟩
  rw [h.unmarked] at hmem
  exact (List.mem_filter.1 hmem).1

theorem Alike.append {a b a' b' : List Char} (h : Alike a b) (h' : Alike a' b') : Alike (a ++ a') (b ++ b') where
  unmarked := by rw [unmarked_append, unmarked_append, h.unmarked, h'.unmarked]
  angles := by
    have := h.angles
    have := h'.angles
    simp only [List.count_append]
    omega
  brackets := by
    simp only [List.count_append]
    exact Nat.add_le_add h.brackets h'.brackets

/-- The first half of a bracketed word, or all of it. -/
theorem alike_word (w : List Char) : Alike ('[' :: w) ('\x60' :: w) where
  unmarked := by rw [unmarked_mark (by decide), unmarked_mark (by decide)]
  angles := by simp
  brackets := by simp

theorem Piece.alike (p : Piece) : Alike p.source p.written := by
  cases p with
  | kept c => exact .refl [c]
  | word w => exact (alike_word w).append ⟨by decide, by decide, by decide⟩
  | address u =>
    have hangles : Alike u ('<' :: u ++ ['>']) := by
      refine ⟨?_, ?_, by simp⟩
      · simp only [List.cons_append, unmarked_mark (show isMark '<' = true from rfl), unmarked_append]
        exact List.append_nil _
      · simp
        omega
    exact hangles

theorem alike_written (ps : List Piece) : Alike (sourceOf ps) (writtenOf ps) := by
  induction ps with
  | nil => exact .refl []
  | cons p ps ih => exact p.alike.append ih

/-- **A description keeps its text**, but for the marks. -/
theorem unmarked_sanitize (text : String) : unmarked (sanitize text).toList = unmarked text.toList := by
  rw [sanitize, String.toList_ofList, ← writtenOf_pieces, (alike_written _).unmarked, (pieces_spec _ _).1]

end TypedQuery.Emission
