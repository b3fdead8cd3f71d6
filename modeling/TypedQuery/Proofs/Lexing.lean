/-
Lexemes are read from their own text. `Lexes rest xs` says that `xs` are the
lexemes which `scan` reads in front of `rest`, each checked with all that
follows it present. So lexemes that end in a brace are read in front of any
other text, too (`Lexes.closed`), and what is ignored before them may be
another (`Lexes.reblank`).
-/
import TypedQuery.Proofs.Tokens

namespace TypedQuery.Source

/-- Ignored text in front of a token that begins with `c`, whatever follows. -/
def Blank (blank : List Char) (c : Char) : Prop := ∀ after, ignoredLength false (blank ++ c :: after) = blank.length

/-- The text of lexemes in a row, with what is ignored in front of them. -/
def written (xs : List Lexeme) : List Char := xs.flatMap fun x => x.blank ++ x.text

/-- In front of `rest`, the lexeme `x` is what is read from its own text. -/
def Scans (rest : List Char) (x : Lexeme) : Prop :=
  ∃ c w m, x.text = c :: w ∧ Blank x.blank c ∧ scanToken c (w ++ rest) = (some x.token, m) ∧
    (w ++ rest).take m = w ∧ (w ++ rest).drop m = rest

/-- In front of `rest`, the lexemes are what is read from their own text. -/
inductive Lexes (rest : List Char) : List Lexeme → Prop
  | nil : Lexes rest []
  | cons {x : Lexeme} {xs : List Lexeme} (head : Scans (written xs ++ rest) x) (tail : Lexes rest xs) :
      Lexes rest (x :: xs)

section Lexes

variable {blank text rest rest' after : List Char} {c : Char} {x : Lexeme} {xs ys : List Lexeme}

@[simp] theorem written_nil : written [] = [] := rfl

@[simp] theorem written_cons : written (x :: xs) = x.blank ++ x.text ++ written xs := rfl

@[simp] theorem written_append : written (xs ++ ys) = written xs ++ written ys := List.flatMap_append

theorem source_cons : Lexeme.source (x :: xs) = x.text ++ written xs := rfl

/-- Whether what follows `c` is in a comment, if `c` is ignored. -/
def afterIgnored? (inComment : Bool) (c : Char) : Option Bool :=
  if inComment then some (c ≠ '\n' && c ≠ '\r')
  else if isIgnored c then some false
  else if c = '#' then some true
  else none

theorem ignoredLength_cons (inComment : Bool) :
    ignoredLength inComment (c :: rest) =
      ((afterIgnored? inComment c).map fun b => 1 + ignoredLength b rest).getD 0 := by
  rw [ignoredLength, afterIgnored?]
  split
  next => rfl
  next =>
    split
    next => rfl
    next => split <;> rfl

theorem ignoredLength_take {inComment : Bool} (h : text.drop (ignoredLength inComment text) = c :: rest)
    (after : List Char) :
    ignoredLength inComment (text.take (ignoredLength inComment text) ++ c :: after) =
      ignoredLength inComment text := by
  induction text generalizing inComment with
  | nil => cases h
  | cons c' text ih =>
    cases hnext : afterIgnored? inComment c' with
    | none =>
      have hzero : ignoredLength inComment (c' :: text) = 0 := by simp [ignoredLength_cons, hnext]
      rw [hzero] at h ⊢
      obtain ⟨rfl, -⟩ := List.cons.inj h
      simp [ignoredLength_cons, hnext]
    | some b =>
      have hsucc : ignoredLength inComment (c' :: text) = ignoredLength b text + 1 := by
        simp [ignoredLength_cons, hnext, Nat.add_comm]
      rw [hsucc] at h ⊢
      rw [List.take_succ_cons, List.cons_append, ignoredLength_cons, hnext, Option.map_some, Option.getD_some, ih h,
        Nat.add_comm]

/-- After ignored text, what is not ignored is in no comment. -/
theorem ignoredLength_head {inComment : Bool} (h : ignoredLength inComment (blank ++ c :: after) = blank.length) :
    afterIgnored? false c = none := by
  induction blank generalizing inComment with
  | nil =>
    rw [List.nil_append, ignoredLength_cons] at h
    cases inComment with
    | false => cases hnext : afterIgnored? false c <;> simp_all
    | true => simp [afterIgnored?] at h
  | cons c' blank ih =>
    rw [List.cons_append, ignoredLength_cons] at h
    cases hnext : afterIgnored? inComment c' with
    | none => simp [hnext] at h
    | some b =>
      rw [hnext] at h
      exact ih (Nat.add_left_cancel (h.trans (Nat.add_comm _ _)))

theorem blank_of_all (hblank : blank.all isIgnored = true) (hc : afterIgnored? false c = none) : Blank blank c := by
  intro after
  induction blank with
  | nil => simp [ignoredLength_cons, hc]
  | cons c' blank ih =>
    obtain ⟨hc', hblank⟩ : isIgnored c' = true ∧ blank.all isIgnored = true := by simpa using hblank
    simp [ignoredLength_cons, afterIgnored?, hc', ih (by simpa using hblank), Nat.add_comm]

theorem scan_blank (hblank : Blank blank c) :
    scan (blank ++ c :: after) =
      (scanToken c after).1.map (fun t => ⟨blank, t, c :: after.take (scanToken c after).2⟩) ::
        scan (after.drop (scanToken c after).2) := by
  rw [scan.eq_def]
  dsimp only
  rw [hblank after]
  split
  next h => simp at h
  next c' after' h =>
    rw [List.drop_left, List.cons.injEq] at h
    obtain ⟨rfl, rfl⟩ := h
    rw [List.take_left]

theorem scan_nil (h : text.drop (ignoredLength false text) = []) : scan text = [] := by
  rw [scan.eq_def]
  dsimp only
  split
  next => rfl
  next h' => cases h.symm.trans h'

theorem Lexes.scan_eq (h : Lexes rest xs) : scan (written xs ++ rest) = xs.map some ++ scan rest := by
  induction h with
  | nil => rfl
  | @cons x xs head _ ih =>
    obtain ⟨c, w, m, htext, hblank, htoken, htake, hdrop⟩ := head
    have happend : written (x :: xs) ++ rest = x.blank ++ c :: (w ++ (written xs ++ rest)) := by simp [htext]
    rw [happend, scan_blank hblank, htoken]
    dsimp only
    rw [htake, hdrop, ih, ← htext]
    rfl

/-- A text is its lexemes, and after them what is ignored. -/
theorem lexes_of_scan (h : scan text = xs.map some) :
    ∃ rest, text = written xs ++ rest ∧ Lexes rest xs ∧ scan rest = [] := by
  induction hn : text.length using Nat.strongRecOn generalizing text xs with
  | ind n ih =>
    cases hdrop : text.drop (ignoredLength false text) with
    | nil =>
      rw [scan_nil hdrop] at h
      obtain rfl := List.map_eq_nil_iff.1 h.symm
      exact ⟨text, rfl, .nil, scan_nil hdrop⟩
    | cons c after =>
      have hblank : Blank (text.take (ignoredLength false text)) c := by
        intro after'
        rw [ignoredLength_take hdrop after', List.length_take, Nat.min_eq_left]
        exact Nat.le_of_not_lt fun hlt => by simp [List.drop_eq_nil_of_le (Nat.le_of_lt hlt)] at hdrop
      have htext : text = text.take (ignoredLength false text) ++ c :: after := by rw [← hdrop, List.take_append_drop]
      rw [htext, scan_blank hblank] at h
      cases xs with
      | nil => cases h
      | cons x xs =>
        obtain ⟨hx, hxs⟩ := List.cons.inj h
        obtain ⟨t, ht, rfl⟩ := Option.map_eq_some_iff.1 hx
        have hshorter : (after.drop (scanToken c after).2).length < n := by
          rw [← hn, htext]
          simp only [List.length_drop, List.length_append, List.length_cons]
          omega
        obtain ⟨rest, hafter, hlexes, hrest⟩ := ih _ hshorter hxs rfl
        have hsplit : after.take (scanToken c after).2 ++ (written xs ++ rest) = after := by
          rw [← hafter, List.take_append_drop]
        refine ⟨rest, ?_, .cons ⟨c, _, (scanToken c after).2, rfl, hblank, ?_, ?_, ?_⟩ hlexes, hrest⟩
        · rw [written_cons, List.append_assoc, List.append_assoc, List.cons_append, hsplit]
          exact htext
        · rw [hsplit, ← ht]
        · rw [hsplit]
        · rw [hsplit, hafter]

theorem mapM_id_eq_some {α : Type} {xs? : List (Option α)} {xs : List α} :
    xs?.mapM id = some xs ↔ xs? = xs.map some := by
  induction xs? generalizing xs with
  | nil => cases xs <;> simp
  | cons x? xs? ih =>
    cases x? with
    | none => cases xs <;> simp [List.mapM_cons]
    | some x =>
      cases xs with
      | nil => simp [List.mapM_cons, Option.bind_eq_some_iff]
      | cons => simp [List.mapM_cons, Option.bind_eq_some_iff, ih, and_comm, and_assoc]

theorem lexemes?_eq_some : lexemes? text = some xs ↔ scan text = xs.map some := mapM_id_eq_some

theorem lexes_cons : Lexes rest (x :: xs) ↔ Scans (written xs ++ rest) x ∧ Lexes rest xs := by
  constructor
  · rintro (_ | ⟨head, tail⟩)
    exact ⟨head, tail⟩
  · exact fun h => .cons h.1 h.2

theorem lexes_append : Lexes rest (xs ++ ys) ↔ Lexes (written ys ++ rest) xs ∧ Lexes rest ys := by
  induction xs with
  | nil => exact ⟨fun h => ⟨.nil, h⟩, And.right⟩
  | cons x xs ih => rw [List.cons_append, lexes_cons, lexes_cons, ih, written_append, List.append_assoc, and_assoc]

/-- A lexeme with more text after it is the same with any other text that begins with the same character. -/
theorem Scans.congr (h : Scans rest x) (hne : rest ≠ []) (hsame : rest.head? = rest'.head?) : Scans rest' x := by
  obtain ⟨c', w, m, htext, hblank, htoken, htake, hdrop⟩ := h
  have hm : m = w.length := by
    have hlength := congrArg List.length hdrop
    have hpos := List.length_pos_iff.2 hne
    simp only [List.length_drop, List.length_append] at hlength
    omega
  subst hm
  refine ⟨c', w, _, htext, hblank, scanToken_congr htoken (sameUpTo_append hsame w), ?_, ?_⟩
  · exact List.take_left
  · exact List.drop_left

theorem Scans.closeBrace (h : Scans rest x) (hx : x.token = .closeBrace) : Scans rest' x := by
  obtain ⟨c, w, m, htext, hblank, htoken, htake, hdrop⟩ := h
  rw [hx] at htoken
  obtain ⟨rfl, rfl⟩ := scanToken_closeBrace htoken
  obtain rfl : [] = w := htake
  exact ⟨_, [], 0, htext, hblank, by rw [hx]; rfl, rfl, rfl⟩

theorem Lexes.written_ne_nil (h : Lexes rest xs) (hne : xs ≠ []) : written xs ≠ [] := by
  cases h with
  | nil => exact absurd rfl hne
  | cons head _ =>
    obtain ⟨c, w, m, htext, -⟩ := head
    simp [htext]

/-- Lexemes that end in a brace are read in front of any text. -/
theorem Lexes.closed (h : Lexes rest (xs ++ [x])) (hx : x.token = .closeBrace) : Lexes rest' (xs ++ [x]) := by
  induction xs with
  | nil => exact .cons ((lexes_cons.1 h).1.closeBrace hx) .nil
  | cons y xs ih =>
    rw [List.cons_append, lexes_cons] at h ⊢
    have hne := h.2.written_ne_nil (List.append_ne_nil_of_right_ne_nil _ (List.cons_ne_nil x []))
    obtain ⟨c, w, hw⟩ := List.exists_cons_of_ne_nil hne
    rw [hw] at h ⊢
    exact ⟨h.1.congr (by simp) rfl, ih h.2⟩

/-- What is ignored before lexemes may be another text of ignored characters. -/
theorem Lexes.reblank (h : Lexes rest (x :: xs)) (hblank : blank.all isIgnored = true) :
    Lexes rest ({ x with blank := blank } :: xs) := by
  obtain ⟨⟨c, w, m, htext, hold, hscan⟩, tail⟩ := lexes_cons.1 h
  exact .cons ⟨c, w, m, htext, blank_of_all hblank (ignoredLength_head (hold [])), hscan⟩ tail

end Lexes

end TypedQuery.Source
