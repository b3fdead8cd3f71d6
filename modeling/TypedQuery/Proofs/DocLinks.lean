/-
Links in a description. Which pieces hold the characters that make a link: a
square bracket of a link stays, or a web address runs over it; the parenthesis
behind the target stays, or a bracketed word that begins in the target runs
over it. A link survives the scan if and only if no piece does so
(`Link.survives_iff`).
-/
import TypedQuery.Proofs.DocPieces

namespace TypedQuery.Emission

open Piece (sourceOf writtenOf)

/-! ## Where a character stands -/

section occurrences

variable {a b a' b' r : List Char} {c : Char}

/-- What has no `c` in it ends before the first `c`. -/
theorem exists_of_notMem (h : a ++ c :: b = a' ++ r) (ha' : c ∉ a') : ∃ z, a = a' ++ z ∧ r = z ++ c :: b := by
  obtain ⟨t, rfl, ht⟩ | ⟨z, rfl, hr⟩ := List.append_eq_append_iff.1 h
  · cases t with
    | nil => exact ⟨[], by simp, by simpa using ht.symm⟩
    | cons d t =>
      cases ht
      simp at ha'
  · exact ⟨z, rfl, hr⟩

/-- The first `c` of a text is where it is. -/
theorem first_eq (h : a ++ c :: b = a' ++ c :: b') (ha : c ∉ a) (ha' : c ∉ a') : a = a' := by
  obtain ⟨z, rfl, hz⟩ := exists_of_notMem h ha'
  cases z with
  | nil => simp
  | cons d z =>
    cases hz
    simp at ha

/-- The last `c` of a text is where it is. -/
theorem last_eq (h : a ++ c :: b = a' ++ c :: b') (hb : c ∉ b) (hb' : c ∉ b') : b = b' := by
  have hreverse := congrArg List.reverse h
  simp only [List.reverse_append, List.reverse_cons, List.append_assoc, List.singleton_append] at hreverse
  exact List.reverse_injective (first_eq hreverse (by simpa using hb) (by simpa using hb'))

/-- Two places with the same text in front of them are one, marks apart. -/
theorem aligned (hc : isMark c = false) (h : a ++ c :: b = a' ++ c :: b') (hu : unmarked a = unmarked a') :
    a = a' ∧ b = b' := by
  induction a generalizing a' with
  | nil =>
    cases a' with
    | nil => exact ⟨rfl, by simpa using h⟩
    | cons d a' =>
      cases h
      rw [unmarked_cons hc] at hu
      cases hu
  | cons d a ih =>
    cases a' with
    | nil =>
      cases h
      rw [unmarked_cons hc] at hu
      cases hu
    | cons d' a' =>
      obtain ⟨rfl, hrest⟩ := List.cons.inj h
      have hu' : unmarked a = unmarked a' := by
        cases hd : isMark d with
        | false => simpa [unmarked_cons hd] using hu
        | true => simpa [unmarked_mark hd] using hu
      obtain ⟨rfl, hb⟩ := ih hrest hu'
      exact ⟨rfl, hb⟩

end occurrences

/-- A character of a text is a character of one piece. -/
theorem exists_piece {ps : List Piece} {a b : List Char} {c : Char} (h : sourceOf ps = a ++ c :: b) :
    ∃ P p Q x y, ps = P ++ p :: Q ∧ p.source = x ++ c :: y ∧ a = sourceOf P ++ x ∧ b = y ++ sourceOf Q := by
  induction ps generalizing a with
  | nil => simp at h
  | cons p ps ih =>
    have hlater : ∀ a', sourceOf ps = a' ++ c :: b → a = p.source ++ a' → ∃ P q Q x y,
        p :: ps = P ++ q :: Q ∧ q.source = x ++ c :: y ∧ a = sourceOf P ++ x ∧ b = y ++ sourceOf Q := by
      rintro a' ha' rfl
      obtain ⟨P, q, Q, x, y, rfl, hq, rfl, rfl⟩ := ih ha'
      exact ⟨p :: P, q, Q, x, y, rfl, hq, by simp, rfl⟩
    rw [Piece.sourceOf_cons] at h
    obtain ⟨a', rfl, ha'⟩ | ⟨t, ht, hb⟩ := List.append_eq_append_iff.1 h
    · exact hlater a' ha' rfl
    · cases t with
      | nil => exact hlater [] (by simpa using hb.symm) (by simpa using ht.symm)
      | cons d t =>
        cases hb
        exact ⟨[], p, ps, a, t, rfl, ht, rfl, rfl⟩

/-- A bracketed word ends with the bracket that closes it. -/
theorem eq_append_of_word {w x y : List Char} {c : Char} (hc : c ≠ ']') (h : '[' :: w ++ [']'] = x ++ c :: y) :
    ∃ y', y = y' ++ [']'] ∧ '[' :: w = x ++ c :: y' := by
  obtain rfl | ⟨y', d, rfl⟩ := List.eq_nil_or_concat' y
  · exact absurd (List.cons.inj (List.append_inj' h rfl).2).1.symm hc
  · obtain ⟨hw, hd⟩ := List.append_inj' (h.trans (List.append_assoc x (c :: y') [d]).symm) rfl
    exact ⟨y', by rw [hd], hw⟩

theorem Reads.isAddress {ps : List Piece} {u : List Char} (h : Reads ps) (hu : .address u ∈ ps) : IsAddress u := by
  obtain ⟨P, Q, rfl⟩ := List.append_of_mem hu
  exact h.fits.1

/-- An address begins before each of its characters but the first. -/
theorem Reads.runs_over {S R : List Piece} {x y : List Char} {c : Char} (h : Reads (S ++ .address (x ++ c :: y) :: R))
    (hc : c ≠ 'h') : (sourceOf S).length < (sourceOf S ++ x).length ∧
      (sourceOf S ++ x).length < (sourceOf S).length + (x ++ c :: y).length := by
  obtain ⟨u, hu⟩ := h.fits.1.exists_cons
  cases x with
  | nil => exact absurd (List.cons.inj hu).1 hc
  | cons d x =>
    simp only [List.length_append, List.length_cons]
    omega

/-! ## The pieces of a link -/

section link

variable {ps : List Piece} {a b t : List Char}

/-- The bracket behind a link's text stays, or an address runs over it and on into the target. -/
theorem Reads.closing (h : Reads ps) (hs : sourceOf ps = a ++ ']' :: '(' :: b) :
    (∃ S R, ps = S ++ .kept ']' :: .kept '(' :: R ∧ sourceOf S = a ∧ sourceOf R = b) ∨
    ∃ S x y R, ps = S ++ .address (x ++ ']' :: '(' :: y) :: R ∧ a = sourceOf S ++ x ∧ b = y ++ sourceOf R := by
  obtain ⟨S, p, Q, x, y, rfl, hp, rfl, hQ⟩ := exists_piece hs
  have hfits := h.fits
  cases p with
  | word w =>
    -- The first bracket that closes is the last character of the word, and no target follows it.
    have hy : y = [] := by
      cases x with
      | nil => cases hp
      | cons d x =>
        have hlast : w ++ ']' :: [] = x ++ ']' :: y := (List.cons.inj hp).2
        obtain ⟨z, rfl, hz⟩ := exists_of_notMem hlast.symm hfits.1
        cases z with
        | nil => simpa using hz.symm
        | cons e z => simp at hz
    subst hy
    exact absurd (by rw [show sourceOf Q = '(' :: b by simpa using hQ.symm]; rfl) hfits.2
  | address u =>
    cases y with
    | nil =>
      have hend := hfits.2 '(' (by rw [show sourceOf Q = '(' :: b by simpa using hQ.symm]; rfl)
      exact absurd hend (by decide)
    | cons d y =>
      obtain ⟨rfl, rfl⟩ := List.cons.inj hQ
      exact .inr ⟨S, x, y, Q, by rw [← hp]; rfl, rfl, rfl⟩
  | kept c =>
    obtain ⟨rfl, rfl, rfl⟩ : x = [] ∧ c = ']' ∧ y = [] := by
      cases x with
      | nil =>
        cases hp
        exact ⟨rfl, rfl, rfl⟩
      | cons d x => simp [Piece.source] at hp
    -- Neither a word nor an address begins with a parenthesis.
    cases Q with
    | nil => simp at hQ
    | cons q R =>
      have hq : q.source ++ sourceOf R = '(' :: b := by simpa using hQ.symm
      cases q with
      | word w => cases hq
      | address u =>
        obtain ⟨u', rfl⟩ := (h.isAddress (by simp) : IsAddress u).exists_cons
        cases hq
      | kept d =>
        obtain ⟨rfl, hR⟩ := List.cons.inj hq
        exact .inl ⟨S, R, rfl, by simp, hR⟩

/-- The bracket in front of a link's text stays, or an address runs over it. -/
theorem opening_of_source (hs : sourceOf ps = a ++ '[' :: t) (ht : ']' ∉ t) :
    (∃ P T, ps = P ++ .kept '[' :: T ∧ sourceOf P = a ∧ sourceOf T = t) ∨
    ∃ P x y T, ps = P ++ .address (x ++ '[' :: y) :: T ∧ a = sourceOf P ++ x ∧ t = y ++ sourceOf T := by
  obtain ⟨P, p, T, x, y, rfl, hp, rfl, rfl⟩ := exists_piece hs
  cases p with
  | address u => exact .inr ⟨P, x, y, T, by rw [← hp]; rfl, rfl, rfl⟩
  | kept c =>
    cases x with
    | nil =>
      cases hp
      exact .inl ⟨P, T, rfl, by simp, rfl⟩
    | cons d x => simp [Piece.source] at hp
  | word w =>
    obtain ⟨y', rfl, -⟩ := eq_append_of_word (by decide) hp
    simp at ht

/-- The parenthesis behind a target stays, or a word that begins in the target runs over it. -/
theorem Reads.ending (h : Reads ps) (hs : sourceOf ps = t ++ ')' :: b) :
    (∃ U Q, ps = U ++ .kept ')' :: Q ∧ sourceOf U = t ∧ sourceOf Q = b) ∨
    ∃ U x y Q, ps = U ++ .word (x ++ ')' :: y) :: Q ∧ t = sourceOf U ++ '[' :: x := by
  obtain ⟨U, p, Q, x, y, rfl, hp, rfl, rfl⟩ := exists_piece hs
  cases p with
  | kept c =>
    cases x with
    | nil =>
      cases hp
      exact .inl ⟨U, Q, rfl, by simp, rfl⟩
    | cons d x => simp [Piece.source] at hp
  | address u =>
    have hu : IsAddress (x ++ ')' :: y) := hp ▸ h.fits.1
    exact absurd (hu.2 ')' (by simp)) (by decide)
  | word w =>
    obtain ⟨y', rfl, hw⟩ := eq_append_of_word (by decide) hp
    cases x with
    | nil => cases hw
    | cons d x =>
      cases hw
      exact .inr ⟨U, x, y', Q, rfl, rfl⟩

end link

/-! ## Addresses between angle brackets -/

/-- The second text is the first with angle brackets put around some of the web addresses in it. -/
inductive Wrapped : List Char → List Char → Prop
  | nil : Wrapped [] []
  | cons (c) {a b} (h : Wrapped a b) : Wrapped (c :: a) (c :: b)
  | address {u a b} (hu : IsAddress u) (h : Wrapped a b) : Wrapped (u ++ a) ('<' :: u ++ '>' :: b)

theorem Wrapped.mem {a b : List Char} {c : Char} (h : Wrapped a b) (hc : c ∈ b) : c ∈ a ∨ c = '<' ∨ c = '>' := by
  induction h with
  | nil => exact .inl hc
  | cons d _ ih =>
    obtain rfl | hc := List.mem_cons.1 hc
    · exact .inl List.mem_cons_self
    · exact (ih hc).imp_left (List.mem_cons_of_mem d)
  | @address u _ b _ _ ih =>
    simp only [List.cons_append, List.mem_cons, List.mem_append] at hc ⊢
    grind

theorem Wrapped.alike {a b : List Char} (h : Wrapped a b) : Alike a b ∧ b.count '[' = a.count '[' := by
  induction h with
  | nil => exact ⟨.refl [], rfl⟩
  | cons c _ ih => exact ⟨(Alike.refl [c]).append ih.1, by rw [List.count_cons, List.count_cons, ih.2]⟩
  | @address u a b _ _ ih =>
    have hwritten : '<' :: u ++ '>' :: b = (Piece.address u).written ++ b := by simp [Piece.written]
    refine ⟨hwritten ▸ (Piece.address u).alike.append ih.1, ?_⟩
    simp [ih.2]

theorem wrapped_written {ps : List Piece} (hu : ∀ u, .address u ∈ ps → IsAddress u) (hw : ∀ w, .word w ∉ ps) :
    Wrapped (sourceOf ps) (writtenOf ps) := by
  induction ps with
  | nil => exact .nil
  | cons p ps ih =>
    have hrest := ih (fun u h => hu u (List.mem_cons_of_mem p h)) fun w h => hw w (List.mem_cons_of_mem p h)
    cases p with
    | kept c => exact .cons c hrest
    | word w => exact absurd List.mem_cons_self (hw w)
    | address u =>
      have hwritten : writtenOf (.address u :: ps) = '<' :: u ++ '>' :: writtenOf ps := by simp [Piece.written]
      exact hwritten ▸ .address (hu u List.mem_cons_self) hrest

/-- An angle bracket that closes where none was opened makes the difference. -/
theorem Alike.not_closed {z z' : List Char} (h : Alike z z') (y : List Char) : ¬ Alike (y ++ z) (y ++ '>' :: z') := by
  intro hclosed
  have hz := h.angles
  have hy := hclosed.angles
  simp at hy
  omega

theorem count_written (ps : List Piece) :
    (∀ w, .word w ∉ ps) ∨ (writtenOf ps).count '[' < (sourceOf ps).count '[' := by
  by_cases hw : ∃ w, .word w ∈ ps
  · obtain ⟨w, hw⟩ := hw
    obtain ⟨P, Q, rfl⟩ := List.append_of_mem hw
    have hP := (alike_written P).brackets
    have hQ := (alike_written Q).brackets
    right
    simp [Piece.source, Piece.written]
    omega
  · exact .inl (not_exists.1 hw)

/-- The first closing parenthesis of what is written, and what is in front of it. No square
bracket is missing there only if the parenthesis stays and there is no word in front of it. -/
theorem Reads.written_ending {ps : List Piece} {t b : List Char} (h : Reads ps) (hs : sourceOf ps = t ++ ')' :: b) :
    ∃ t' b', writtenOf ps = t' ++ ')' :: b' ∧ Alike t t' ∧ (t'.count '[' = t.count '[' →
      ∃ U Q, ps = U ++ .kept ')' :: Q ∧ sourceOf U = t ∧ sourceOf Q = b ∧ ∀ w, .word w ∉ U) := by
  obtain ⟨U, Q, rfl, rfl, rfl⟩ | ⟨U, x, y, Q, rfl, rfl⟩ := h.ending hs
  · refine ⟨writtenOf U, writtenOf Q, by simp [Piece.written], alike_written U, fun hcount => ?_⟩
    exact ⟨U, Q, rfl, rfl, rfl, (count_written U).resolve_right (Nat.not_lt.2 hcount.ge)⟩
  · refine ⟨writtenOf U ++ '\x60' :: x, y ++ '\x60' :: writtenOf Q, by simp [Piece.written],
      (alike_written U).append (alike_word x), fun hcount => ?_⟩
    have hfewer := (alike_written U).brackets
    simp at hcount
    omega

/-! ## Links -/

/-- An inline link in a text: `before[text](target)after`. -/
structure Link where
  before : List Char
  text : List Char
  target : List Char
  after : List Char
  text_plain : ∀ c ∈ text, c ≠ '[' ∧ c ≠ ']'
  target_plain : ∀ c ∈ target, Text.isWhiteSpace c = false ∧ c ≠ '(' ∧ c ≠ ')'

namespace Link

/-- The link in its text. -/
def whole (l : Link) : List Char := l.before ++ '[' :: l.text ++ ']' :: '(' :: l.target ++ ')' :: l.after

def source (l : Link) : String := String.ofList l.whole

/-- `m` is what `l` becomes: a link at the same place, with angle brackets put around addresses
in its text and its target at most. -/
structure Becomes (l m : Link) : Prop where
  source : m.source = sanitize l.source
  before : unmarked m.before = unmarked l.before
  text : Wrapped l.text m.text
  target : Wrapped l.target m.target
  after : unmarked m.after = unmarked l.after

/-- The link is still one after the scan. -/
def Survives (l : Link) : Prop := ∃ m, l.Becomes m

/-- Where the two square brackets stand. -/
def opening (l : Link) : Nat := l.before.length

def closing (l : Link) : Nat := (l.before ++ '[' :: l.text).length

/-- A piece that begins at `start` leaves the link whole: an address runs over neither square
bracket, and no word begins in the target. -/
def Spares (l : Link) (start : Nat) : Piece → Prop
  | .kept _ => True
  | .word _ => start ≤ l.closing + 1 ∨ l.closing + 1 + l.target.length < start
  | .address u => ¬ (start < l.opening ∧ l.opening < start + u.length) ∧
      ¬ (start < l.closing ∧ l.closing < start + u.length)

instance (l : Link) (start : Nat) : (p : Piece) → Decidable (l.Spares start p)
  | .kept _ => inferInstanceAs (Decidable True)
  | .word _ => inferInstanceAs (Decidable (_ ∨ _))
  | .address _ => inferInstanceAs (Decidable (_ ∧ _))

end Link

/-- The pieces, each with the place where it begins. -/
def placed (n : Nat) : List Piece → List (Nat × Piece)
  | [] => []
  | p :: ps => (n, p) :: placed (n + p.source.length) ps

theorem placed_append (n : Nat) (ps qs : List Piece) :
    placed n (ps ++ qs) = placed n ps ++ placed (n + (sourceOf ps).length) qs := by
  induction ps generalizing n with
  | nil => rfl
  | cons p ps ih => simp [placed, ih, Nat.add_assoc]

theorem mem_placed {n k : Nat} {p : Piece} {ps : List Piece} (h : (k, p) ∈ placed n ps) :
    p ∈ ps ∧ n ≤ k ∧ k + p.source.length ≤ n + (sourceOf ps).length := by
  induction ps generalizing n with
  | nil => cases h
  | cons q ps ih =>
    rw [Piece.sourceOf_cons, List.length_append]
    obtain h | h := List.mem_cons.1 h
    · cases h
      exact ⟨List.mem_cons_self, le_rfl, by omega⟩
    · obtain ⟨hp, hn, hk⟩ := ih h
      exact ⟨List.mem_cons_of_mem q hp, by omega, by omega⟩

theorem placed_middle (P : List Piece) (p : Piece) (Q : List Piece) :
    ((sourceOf P).length, p) ∈ placed 0 (P ++ p :: Q) := by
  rw [placed_append, Nat.zero_add]
  exact List.mem_append_right _ List.mem_cons_self

namespace Link

/-- No piece of the scan spoils the link. -/
def IsClear (l : Link) : Prop := ∀ q ∈ placed 0 (pieces false l.whole), l.Spares q.1 q.2

instance (l : Link) : Decidable l.IsClear := inferInstanceAs (Decidable (∀ q ∈ _, _))

/-- The four characters that make the link stay: the pieces before it, of its text, of its target and after it. -/
structure Laid (l : Link) (P T U Q : List Piece) : Prop where
  scan : pieces false l.whole = P ++ .kept '[' :: T ++ .kept ']' :: .kept '(' :: U ++ .kept ')' :: Q
  before : sourceOf P = l.before
  text : sourceOf T = l.text
  target : sourceOf U = l.target
  after : sourceOf Q = l.after
  wordless : ∀ w, .word w ∉ U

variable {l : Link} {P T U Q S R : List Piece}

theorem text_no_closing (l : Link) : ']' ∉ l.text := fun h => (l.text_plain _ h).2 rfl

theorem target_no_ending (l : Link) : ')' ∉ l.target := fun h => (l.target_plain _ h).2.2 rfl

theorem whole_eq (l : Link) :
    l.whole = (l.before ++ '[' :: l.text) ++ ']' :: '(' :: (l.target ++ ')' :: l.after) := by
  simp [whole]

theorem IsClear.middle (h : l.IsClear) {p : Piece} (hp : pieces false l.whole = S ++ p :: R) :
    l.Spares (sourceOf S).length p :=
  h _ (hp ▸ placed_middle S p R)

/-- The bracket behind the text stays, with the parenthesis that follows it. -/
theorem IsClear.closing_kept (h : l.IsClear) :
    ∃ S R, pieces false l.whole = S ++ .kept ']' :: .kept '(' :: R ∧ sourceOf S = l.before ++ '[' :: l.text ∧
      sourceOf R = l.target ++ ')' :: l.after := by
  obtain ⟨hsource, hreads⟩ := pieces_spec false l.whole
  obtain hkept | ⟨S, x, y, R, hps, hx, -⟩ := hreads.closing (hsource.trans l.whole_eq)
  · exact hkept
  have hover := (hps ▸ hreads).runs_over (by decide)
  rw [← hx] at hover
  exact absurd hover (h.middle hps).2

/-- If no piece spoils the link, the characters that make it stay. -/
theorem IsClear.laid (h : l.IsClear) : ∃ P T U Q, l.Laid P T U Q := by
  obtain ⟨S, R, hps, hS, hR⟩ := h.closing_kept
  have hreads := (pieces_spec false l.whole).2
  rw [hps] at hreads
  obtain ⟨P, T, rfl, hP, hT⟩ | ⟨P, x, y, T, rfl, hx, -⟩ := opening_of_source hS l.text_no_closing
  case inr =>
    rw [List.append_assoc] at hps hreads
    have hover := hreads.runs_over (by decide)
    rw [← hx] at hover
    exact absurd hover (h.middle hps).1
  -- A word that begins before the end of the target spoils the link, whether it ends there or not.
  have hword : ∀ U w V, R = U ++ .word w :: V → ¬ (sourceOf U).length < l.target.length := by
    rintro U w V rfl hlt
    have hspares := h.middle (hps.trans (List.append_assoc _ (.kept ']' :: .kept '(' :: U) (.word w :: V)).symm)
    simp [Spares, closing, hP, hT] at hspares
    omega
  obtain ⟨U, Q, rfl, hU, hQ⟩ | ⟨U, x, y, Q, rfl, hx⟩ := hreads.suffix.of_cons.of_cons.ending hR
  case inr => exact absurd (by simp [hx]) (hword U _ Q rfl)
  refine ⟨P, T, U, Q, ⟨by simpa using hps, hP, hT, hU, hQ, fun w hw => ?_⟩⟩
  obtain ⟨U₁, U₂, rfl⟩ := List.append_of_mem hw
  exact absurd (by simp [← hU, Piece.source]) (hword U₁ w (U₂ ++ .kept ')' :: Q) (by simp))

/-- A word or an address is in one of the four parts. -/
theorem Laid.parts (h : l.Laid P T U Q) {k : Nat} {p : Piece} (hp : (k, p) ∈ placed 0 (pieces false l.whole))
    (hkept : ∀ c, p ≠ .kept c) :
    k + p.source.length ≤ l.opening ∨ (l.opening < k ∧ k + p.source.length ≤ l.closing) ∨
      (p ∈ U ∧ l.closing + 1 < k) ∨ l.closing + 1 + l.target.length < k := by
  have hopening : l.opening = (sourceOf P).length := by rw [h.before, opening]
  have hclosing : l.closing = (sourceOf P).length + 1 + (sourceOf T).length := by
    simp [h.before, h.text, closing]
    omega
  simp only [h.scan, placed_append, placed, List.append_assoc, List.cons_append, List.mem_append, List.mem_cons,
    Prod.mk.injEq, hkept, and_false, false_or] at hp
  rw [hopening, hclosing, ← h.target]
  obtain hp | hp | hp | hp := hp
  · exact .inl (by simpa using (mem_placed hp).2.2)
  · obtain ⟨-, hk, hlength⟩ := mem_placed hp
    rw [Piece.length_source_kept] at hk hlength
    exact .inr (.inl (by omega))
  · obtain ⟨hmem, hk, -⟩ := mem_placed hp
    simp only [Piece.length_source_kept] at hk
    exact .inr (.inr (.inl ⟨hmem, by omega⟩))
  · obtain ⟨-, hk, -⟩ := mem_placed hp
    simp only [Piece.length_source_kept] at hk
    exact .inr (.inr (.inr (by omega)))

/-- The cuts beside the four characters lie in no piece, and there is no word in the target. -/
theorem Laid.isClear (h : l.Laid P T U Q) : l.IsClear := by
  have hle : l.opening < l.closing := by
    simp [opening, closing]
  rintro ⟨k, p⟩ hp
  cases p with
  | kept => trivial
  | word w =>
    obtain hk | ⟨-, hk⟩ | ⟨hw, -⟩ | hk := h.parts hp fun _ => nofun
    · exact .inl (by omega)
    · exact .inl (by omega)
    · exact absurd hw (h.wordless w)
    · exact .inr hk
  | address u =>
    have hparts := h.parts hp fun _ => nofun
    simp only [Piece.source] at hparts
    exact ⟨by omega, by omega⟩

/-- What is written for the four parts is a link again. -/
theorem Laid.survives (h : l.Laid P T U Q) : l.Survives := by
  have hreads := (pieces_spec false l.whole).2
  rw [h.scan] at hreads
  have htext : Wrapped l.text (writtenOf T) := by
    rw [← h.text]
    refine wrapped_written (fun u hu => hreads.isAddress (by simp [hu])) fun w hw => ?_
    obtain ⟨T₁, T₂, rfl⟩ := List.append_of_mem hw
    exact (l.text_plain '[' (by simp [← h.text, Piece.source])).1 rfl
  have htarget : Wrapped l.target (writtenOf U) := by
    rw [← h.target]
    exact wrapped_written (fun u hu => hreads.isAddress (by simp [hu])) h.wordless
  let m : Link :=
    { before := writtenOf P, text := writtenOf T, target := writtenOf U, after := writtenOf Q
      text_plain := fun c hc => by
        obtain hc | rfl | rfl := htext.mem hc
        · exact l.text_plain c hc
        · decide
        · decide
      target_plain := fun c hc => by
        obtain hc | rfl | rfl := htarget.mem hc
        · exact l.target_plain c hc
        · decide
        · decide }
  refine ⟨m, ⟨?_, ?_, htext, htarget, ?_⟩⟩
  · rw [source, source, sanitize, String.toList_ofList, ← writtenOf_pieces, h.scan]
    simp [m, whole, Piece.written]
  · rw [← h.before, (alike_written P).unmarked]
  · rw [← h.after, (alike_written Q).unmarked]

/-- What is written, cut in front of the target. -/
theorem Becomes.cut {m : Link} (h : l.Becomes m) {a b : List Char}
    (hcut : writtenOf (pieces false l.whole) = a ++ ']' :: '(' :: b)
    (ha : unmarked a = unmarked (l.before ++ '[' :: l.text)) :
    m.before ++ '[' :: m.text = a ∧ m.target ++ ')' :: m.after = b := by
  have hwhole : m.whole = a ++ ']' :: '(' :: b := by
    rw [← hcut, writtenOf_pieces, ← String.ofList_inj]
    simpa [sanitize, Link.source] using h.source
  have hfront : unmarked (m.before ++ '[' :: m.text) = unmarked a := by
    rw [ha, unmarked_append, unmarked_append, h.before, unmarked_mark rfl, unmarked_mark rfl, h.text.alike.1.unmarked]
  rw [whole_eq, List.append_cons, List.append_cons a] at hwhole
  obtain ⟨hfirst, hsecond⟩ := aligned rfl hwhole (by rw [unmarked_append, hfront, unmarked_append])
  exact ⟨List.append_cancel_right hfirst, hsecond⟩

/-- No address runs over the bracket behind the text: the angle bracket behind it would be in the new target. -/
theorem Becomes.closing_kept {m : Link} (h : l.Becomes m) :
    ∃ S R, pieces false l.whole = S ++ .kept ']' :: .kept '(' :: R ∧ sourceOf S = l.before ++ '[' :: l.text ∧
      sourceOf R = l.target ++ ')' :: l.after := by
  obtain ⟨hsource, hreads⟩ := pieces_spec false l.whole
  obtain hkept | ⟨S, x, y, R, hps, hx, hy⟩ := hreads.closing (hsource.trans l.whole_eq)
  · exact hkept
  rw [hps] at hreads
  have hnot : ')' ∉ y := fun hmem => absurd (hreads.fits.1.2 ')' (by simp [hmem])) (by decide)
  obtain ⟨z, hz, hR⟩ := exists_of_notMem hy hnot
  obtain ⟨z', b', hb', halike, -⟩ := hreads.suffix.of_cons.written_ending hR
  have hcut : writtenOf (pieces false l.whole) =
      (writtenOf S ++ '<' :: x) ++ ']' :: '(' :: ((y ++ '>' :: z') ++ ')' :: b') := by
    simp [hps, Piece.written, hb']
  obtain ⟨-, htarget⟩ := h.cut hcut (by simp [hx, unmarked_mark, isMark, (alike_written S).unmarked])
  have hend : ')' ∉ y ++ '>' :: z' := by
    have hz' : ')' ∉ z' := fun hmem => l.target_no_ending (by simp [hz, mem_of_alike halike rfl hmem])
    simp [hnot, hz']
  have hwrapped := h.target.alike.1
  rw [first_eq htarget m.target_no_ending hend, hz] at hwrapped
  exact absurd hwrapped (halike.not_closed y)

/-- Where a link survives, the four characters that make it have stayed. -/
theorem Becomes.laid {m : Link} (h : l.Becomes m) : ∃ P T U Q, l.Laid P T U Q := by
  obtain ⟨S, R, hps, hS, hR⟩ := h.closing_kept
  have hreads := (pieces_spec false l.whole).2
  obtain ⟨htext, htarget⟩ := h.cut (a := writtenOf S) (b := writtenOf R) (by simp [hps, Piece.written])
    (by rw [(alike_written S).unmarked, hS])
  -- An address that runs over the other bracket would end in an angle bracket in the new text.
  obtain ⟨P, T, rfl, hP, hT⟩ | ⟨P, x, y, T, rfl, -, hy⟩ := opening_of_source hS l.text_no_closing
  case inr =>
    have hlast : '[' ∉ y ++ '>' :: writtenOf T := by
      have hcount := (alike_written T).brackets
      have hplain : '[' ∉ l.text := fun hmem => (l.text_plain _ hmem).1 rfl
      rw [hy, List.mem_append, not_or, ← List.count_eq_zero (a := '[') (l := sourceOf T)] at hplain
      simpa [hplain.1, ← List.count_eq_zero] using Nat.le_zero.1 (hplain.2 ▸ hcount)
    have hopened : m.before ++ '[' :: m.text = (writtenOf P ++ '<' :: x) ++ '[' :: (y ++ '>' :: writtenOf T) := by
      simp [htext, Piece.written]
    have hwrapped := h.text.alike.1
    rw [last_eq hopened (fun hmem => (m.text_plain _ hmem).1 rfl) hlast, hy] at hwrapped
    exact absurd hwrapped ((alike_written T).not_closed y)
  rw [hps] at hreads
  obtain ⟨t', b', ht', halike, hkept⟩ := hreads.suffix.of_cons.of_cons.written_ending hR
  have hend : m.target = t' := by
    refine first_eq (htarget.trans ht') m.target_no_ending fun hmem => ?_
    exact l.target_no_ending (mem_of_alike halike rfl hmem)
  obtain ⟨U, Q, rfl, hU, hQ, hwordless⟩ := hkept (hend ▸ h.target.alike.2)
  exact ⟨P, T, U, Q, by simpa using hps, hP, hT, hU, hQ, hwordless⟩

/-- **A link survives if and only if no piece of the scan spoils it.** -/
theorem survives_iff (l : Link) : l.Survives ↔ l.IsClear := by
  constructor
  · intro h
    obtain ⟨m, hm⟩ := h
    obtain ⟨P, T, U, Q, hlaid⟩ := hm.laid
    exact hlaid.isClear
  · intro h
    obtain ⟨P, T, U, Q, hlaid⟩ := h.laid
    exact hlaid.survives

end Link

/-- **A description keeps its text and its links.** The scan ends after at most as many pieces as
there are characters, and takes away or puts in nothing but marks. A link in the text survives as a
link at the same place, up to angle brackets around addresses in its text or its target, if and only
if no web address runs over one of its square brackets and no bracketed word begins in its target. -/
theorem sanitize_links (text : String) :
    (sanitize text).toList = writtenOf (pieces false text.toList) ∧
      (pieces false text.toList).length ≤ text.length ∧ unmarked (sanitize text).toList = unmarked text.toList ∧
      ∀ l : Link, l.source = text → (l.Survives ↔ l.IsClear) := by
  refine ⟨?_, ?_, unmarked_sanitize text, fun l _ => l.survives_iff⟩
  · rw [sanitize, String.toList_ofList, writtenOf_pieces]
  · obtain ⟨hsource, hreads⟩ := pieces_spec false text.toList
    simpa only [hsource, String.length_toList] using hreads.length_le

/-- The address in the target goes between angle brackets, and so does the one in front of the link. -/
theorem docs_survive : ∃ l : Link, l.source = "http://a.b, [docs](https://x.y)." ∧
    sanitize l.source = "<http://a.b>, [docs](<https://x.y>)." ∧ l.Survives := by
  let l : Link := ⟨"http://a.b, ".toList, "docs".toList, "https://x.y".toList, ['.'], by simp,
    by simp [Text.isWhiteSpace]⟩
  have hclear : l.IsClear := by decide +kernel
  have hwritten : sanitize l.source = "<http://a.b>, [docs](<https://x.y>)." := by decide +kernel
  obtain ⟨-, -, -, hlinks⟩ := sanitize_links l.source
  exact ⟨l, rfl, hwritten, (hlinks l rfl).2 hclear⟩

/-- An address in a link's text runs over the bracket behind it, and a bracket in a target is taken for a tag. -/
theorem links_broken :
    (∃ l : Link, l.source = "[https://a.b](https://x.y)" ∧ sanitize l.source = "[<https://a.b](https://x.y>)" ∧
      ¬ l.Survives) ∧
    ∃ l : Link, l.source = "[a](b[c])" ∧ sanitize l.source = "[a](b\x60c\x60)" ∧ ¬ l.Survives := by
  refine ⟨⟨⟨[], "https://a.b".toList, "https://x.y".toList, [], by simp, by simp [Text.isWhiteSpace]⟩, rfl, ?_, ?_⟩,
    ⟨[], ['a'], "b[c]".toList, [], by simp, by simp [Text.isWhiteSpace]⟩, rfl, ?_, ?_⟩
  · decide +kernel
  · rw [Link.survives_iff]
    decide +kernel
  · decide +kernel
  · rw [Link.survives_iff]
    decide +kernel

end TypedQuery.Emission
