/-
Tokens are read without looking far ahead: whether a token stands at the head
of a text, and which, depends on its own characters and one more
(`scanToken_congr`). So it is for each kind of token: names and numbers end
where the next character does not belong to them, and strings at their
closing quotes.
-/
import TypedQuery.Source.Lexer

namespace TypedQuery

/-! ## Texts that begin alike -/

/-- The first `n` characters are the same. -/
def SameUpTo (n : Nat) (cs cs' : List Char) : Prop := cs.take n = cs'.take n

section SameUpTo

variable {n m : Nat} {c : Char} {cs cs' : List Char}

theorem SameUpTo.symm (h : SameUpTo n cs cs') : SameUpTo n cs' cs := Eq.symm h

theorem SameUpTo.mono (h : SameUpTo n cs cs') (hm : m ≤ n) : SameUpTo m cs cs' := by
  unfold SameUpTo at h ⊢
  rw [← Nat.min_eq_left hm, ← List.take_take, ← List.take_take, h]

theorem SameUpTo.head? (h : SameUpTo (n + 1) cs cs') : cs'.head? = cs.head? := by
  cases cs <;> cases cs' <;> simp_all [SameUpTo]

theorem SameUpTo.tail (h : SameUpTo (n + 1) cs cs') : SameUpTo n cs.tail cs'.tail := by
  cases cs <;> cases cs' <;> simp_all [SameUpTo]

theorem SameUpTo.drop (h : SameUpTo (m + n) cs cs') : SameUpTo n (cs.drop m) (cs'.drop m) := by
  unfold SameUpTo at h ⊢
  rw [List.take_drop, List.take_drop, h]

theorem SameUpTo.cons (h : SameUpTo n cs cs') (c : Char) : SameUpTo (n + 1) (c :: cs) (c :: cs') :=
  congrArg (c :: ·) h

theorem SameUpTo.exists_cons (h : SameUpTo (n + 1) (c :: cs) cs') : ∃ rest, cs' = c :: rest ∧ SameUpTo n cs rest := by
  cases cs' with
  | nil => simp [SameUpTo] at h
  | cons c' rest =>
    obtain ⟨rfl, hrest⟩ := List.cons.inj h
    exact ⟨rest, rfl, hrest⟩

/-- A text that begins like `w ++ cs` goes on after `w`. -/
theorem SameUpTo.exists_append (w : List Char) (h : SameUpTo (w.length + n) (w ++ cs) cs') :
    ∃ rest, cs' = w ++ rest ∧ SameUpTo n cs rest := by
  induction w generalizing cs' with
  | nil => exact ⟨cs', rfl, by simpa using h⟩
  | cons c w ih =>
    obtain ⟨rest, rfl, hrest⟩ := (h.mono (Nat.le_of_eq (Nat.add_right_comm _ _ _))).exists_cons
    obtain ⟨rest', rfl, hrest'⟩ := ih hrest
    exact ⟨rest', rfl, hrest'⟩

/-- Texts that go on after `w` with the same character. -/
theorem sameUpTo_append {r r' : List Char} (h : r.head? = r'.head?) (w : List Char) :
    SameUpTo (w.length + 1) (w ++ r) (w ++ r') := by
  induction w with
  | nil => cases r <;> cases r' <;> simp_all [SameUpTo]
  | cons c w ih => exact ih.cons c

theorem SameUpTo.takeWhile {p : Char → Bool} (h : SameUpTo ((cs.takeWhile p).length + 1) cs cs') :
    cs'.takeWhile p = cs.takeWhile p := by
  induction cs generalizing cs' with
  | nil =>
    cases cs' with
    | nil => rfl
    | cons => simp [SameUpTo] at h
  | cons c cs ih =>
    obtain ⟨rest, rfl, hrest⟩ := h.exists_cons
    rw [List.takeWhile_cons, List.takeWhile_cons]
    split
    next hc =>
      rw [List.takeWhile_cons, if_pos hc] at hrest
      rw [ih hrest]
    next => rfl

end SameUpTo

/-! ## Numbers -/

namespace Number

/-- An accepted number is determined by its characters and the one after it. -/
def Local (f : List Char → Scan) : Prop :=
  ∀ ⦃n cs cs'⦄, f cs = ⟨true, n⟩ → SameUpTo (n + 1) cs cs' → f cs' = ⟨true, n⟩

theorem after_eq {m n : Nat} {s : Scan} : s.after m = ⟨true, n⟩ ↔ ∃ k, s = ⟨true, k⟩ ∧ n = m + k := by
  obtain ⟨accepted, length⟩ := s
  simp only [Scan.after, Scan.mk.injEq]
  constructor
  · rintro ⟨rfl, rfl⟩
    exact ⟨_, ⟨rfl, rfl⟩, rfl⟩
  · rintro ⟨k, ⟨rfl, rfl⟩, rfl⟩
    exact ⟨rfl, rfl⟩

theorem local_finish : Local finish := by
  intro n cs cs' h hs
  unfold finish at h ⊢
  rw [hs.head?]
  split at h
  next => simp [refused] at h
  next hc => rwa [if_neg hc]

theorem local_digits {next : List Char → Scan} (hnext : Local next) : Local (digits next) := by
  intro n cs cs' h hs
  unfold digits at h ⊢
  dsimp only at h ⊢
  split at h
  next => simp [refused] at h
  next hne =>
    obtain ⟨k, hk, rfl⟩ := after_eq.1 h
    rw [(hs.mono (by omega)).takeWhile, if_neg hne]
    exact after_eq.2 ⟨k, hnext hk (SameUpTo.drop (hs.mono (by omega))), rfl⟩

/-- One character decides whether to go on with `f` after it or with `g` at it. -/
theorem local_branch {p : Option Char → Prop} [DecidablePred p] {f g : List Char → Scan} (hf : Local f) (hg : Local g) :
    Local fun cs => if p cs.head? then (f cs.tail).after 1 else g cs := by
  intro n cs cs' h hs
  dsimp only at h ⊢
  rw [hs.head?]
  split at h
  next hp =>
    obtain ⟨k, hk, rfl⟩ := after_eq.1 h
    rw [if_pos hp]
    exact after_eq.2 ⟨k, hf hk (SameUpTo.tail (hs.mono (by omega))), rfl⟩
  next hp =>
    rw [if_neg hp]
    exact hg h hs

theorem local_exponent : Local exponent :=
  local_branch (p := fun c? => c?.any fun c => c = 'e' || c = 'E')
    (local_branch (p := fun c? => c?.any fun c => c = '+' || c = '-') (local_digits local_finish)
      (local_digits local_finish)) local_finish

theorem local_fraction : Local fraction :=
  local_branch (p := (· = some '.')) (local_digits local_exponent) local_exponent

/-- A number without its sign. -/
def unsigned (cs : List Char) : Scan :=
  if cs.head? = some '0' then
    (if cs.tail.head?.any Char.isDigit then ⟨false, 1⟩ else fraction cs.tail : Scan).after 1
  else digits fraction cs

theorem scan_eq (cs : List Char) :
    scan cs = if cs.head? = some '-' then (unsigned cs.tail).after 1 else unsigned cs := by
  unfold scan unsigned
  by_cases hsign : cs.head? = some '-'
  · simp only [hsign, if_true, List.drop_one]
    split
    next =>
      split
      · rfl
      · simp only [Scan.after, ← Nat.add_assoc]
    next => rfl
  · simp only [hsign, if_false, List.drop_zero]
    split
    next =>
      split
      · rfl
      · simp [Scan.after]
    next => simp [Scan.after]

theorem local_unsigned : Local unsigned := by
  have hzero : Local fun cs => if cs.head?.any Char.isDigit then ⟨false, 1⟩ else fraction cs := by
    intro n cs cs' h hs
    dsimp only at h ⊢
    rw [hs.head?]
    split at h
    next => simp at h
    next hc =>
      rw [if_neg hc]
      exact local_fraction h hs
  exact local_branch (p := (· = some '0')) hzero (local_digits local_fraction)

theorem local_scan : Local scan := by
  rw [funext scan_eq]
  exact local_branch (p := (· = some '-')) local_unsigned local_unsigned

end Number

/-! ## Strings -/

namespace QuotedString

/-- The value of four hexadecimal digits at the head. -/
def fourDigits? (cs : List Char) : Option Nat := if (cs.take 4).length = 4 then hexValue? (cs.take 4) else none

theorem unicodeEscape_braced {rest : List Char} {c : Char} {n : Nat} :
    unicodeEscape ('\x7b' :: rest) = (some c, n) ↔
      ((hexValue? (rest.takeWhile (hexDigit? · |>.isSome))).bind scalar?) = some c ∧
        (rest.drop (rest.takeWhile (hexDigit? · |>.isSome)).length).head? = some '\x7d' ∧
        n = (rest.takeWhile (hexDigit? · |>.isSome)).length + 2 := by
  rw [unicodeEscape.eq_1]
  split
  next after h => simp [h, eq_comm]
  next c' after hc h =>
    simp only [h, List.head?_cons, Option.some.injEq, Prod.mk.injEq, reduceCtorEq, false_and, false_iff]
    exact fun hclosed => hc hclosed.2.1
  next h => simp [h]

theorem unicodeEscape_plain {cs : List Char} {c : Char} {n : Nat} (h : cs.head? ≠ some '\x7b') :
    unicodeEscape cs = (some c, n) ↔ ∃ v, fourDigits? cs = some v ∧
      (isHighSurrogate v = false ∧ scalar? v = some c ∧ n = 4 ∨ isHighSurrogate v = true ∧
        ∃ rest w, cs.drop 4 = '\\' :: 'u' :: rest ∧ fourDigits? rest = some w ∧ isLowSurrogate w = true ∧
          ofSurrogates v w = c ∧ n = 10) := by
  rw [unicodeEscape.eq_def]
  split
  next => simp at h
  next =>
    generalize hv : (if (cs.take 4).length = 4 then hexValue? (cs.take 4) else none) = v?
    change fourDigits? cs = v? at hv
    rw [hv]
    cases v? with
    | none => simp
    | some v =>
      simp only [Option.some.injEq, exists_eq_left']
      cases isHighSurrogate v with
      | false => simp only [Bool.false_eq_true, if_false, Prod.mk.injEq, true_and, false_and, or_false, eq_comm]
      | true =>
        simp only [if_true, Bool.true_eq_false, false_and, false_or, true_and]
        split
        next rest hrest =>
          generalize hw : (if (rest.take 4).length = 4 then hexValue? (rest.take 4) else none) = w?
          change fourDigits? rest = w? at hw
          cases w? with
          | none => simp [hrest, hw]
          | some w =>
            have hpair : (∃ rest' w', List.drop 4 cs = '\\' :: 'u' :: rest' ∧ fourDigits? rest' = some w' ∧
                isLowSurrogate w' = true ∧ ofSurrogates v w' = c ∧ n = 10) ↔
                isLowSurrogate w = true ∧ ofSurrogates v w = c ∧ n = 10 := by
              constructor
              · rintro ⟨rest', w', hrest', hw', h⟩
                obtain rfl : rest = rest' := by simpa [hrest] using hrest'
                obtain rfl := Option.some.inj (hw.symm.trans hw')
                exact h
              · exact fun h => ⟨rest, w, hrest, hw, h⟩
            rw [hpair]
            dsimp only
            cases isLowSurrogate w with
            | false => simp
            | true => simp only [if_true, Prod.mk.injEq, Option.some.injEq, true_and, eq_comm (a := n)]
        next hpair =>
          simp only [Prod.mk.injEq, reduceCtorEq, false_and, false_iff]
          rintro ⟨rest, w, hrest, -⟩
          exact hpair rest hrest

theorem fourDigits?_congr {cs cs' : List Char} (h : SameUpTo 4 cs cs') : fourDigits? cs' = fourDigits? cs := by
  unfold fourDigits?
  rw [show cs'.take 4 = cs.take 4 from Eq.symm h]

theorem unicodeEscape_congr {cs cs' : List Char} {c : Char} {n : Nat} (h : unicodeEscape cs = (some c, n))
    (hs : SameUpTo n cs cs') : unicodeEscape cs' = (some c, n) := by
  by_cases hbrace : cs.head? = some '\x7b'
  · obtain ⟨rest, rfl⟩ := List.head?_eq_some_iff.1 hbrace
    obtain ⟨hvalue, hclose, rfl⟩ := unicodeEscape_braced.1 h
    obtain ⟨rest', rfl, hrest⟩ := hs.exists_cons
    have hdigits := hrest.takeWhile
    refine unicodeEscape_braced.2 ⟨by rwa [hdigits], ?_, by rw [hdigits]⟩
    rw [hdigits, (SameUpTo.drop hrest).head?, hclose]
  · obtain ⟨v, hv, hcases⟩ := (unicodeEscape_plain hbrace).1 h
    have hn : 4 ≤ n := by
      rcases hcases with ⟨-, -, rfl⟩ | ⟨-, rest, w, -, -, -, -, rfl⟩ <;> omega
    have hfour := hs.mono hn
    rw [← (hfour.mono (m := 1) (by omega)).head?] at hbrace
    refine (unicodeEscape_plain hbrace).2 ⟨v, (fourDigits?_congr hfour).trans hv, ?_⟩
    refine hcases.imp_right fun ⟨hhigh, rest, w, hrest, hw, hlow, hc, hten⟩ => ?_
    subst hten
    have hpair := SameUpTo.drop (m := 4) (n := 6) hs
    rw [hrest] at hpair
    obtain ⟨rest', hafter, hpair⟩ := SameUpTo.exists_append (n := 4) ['\\', 'u'] hpair
    exact ⟨hhigh, rest', w, hafter, (fourDigits?_congr hpair).trans hw, hlow, hc, rfl⟩

theorem escape_u (rest : List Char) : escape ('u' :: rest) = ((unicodeEscape rest).1, (unicodeEscape rest).2 + 1) := rfl

/-- Any other escape is a single character. -/
theorem escape_other {c : Char} (hc : c ≠ 'u') (rest : List Char) :
    escape (c :: rest) = escape [c] ∧ (escape [c]).2 = 1 := by
  constructor
  · rw [escape.eq_def, escape.eq_def [c]]
    simp
  · rw [escape.eq_def]
    simp

theorem escape_congr {cs cs' : List Char} {c : Char} {n : Nat} (h : escape cs = (some c, n))
    (hs : SameUpTo n cs cs') : escape cs' = (some c, n) := by
  cases cs with
  | nil => cases h
  | cons c' rest =>
    by_cases hu : c' = 'u'
    · subst hu
      rw [escape_u, Prod.mk.injEq] at h
      obtain ⟨hc, rfl⟩ := h
      obtain ⟨rest', rfl, hrest⟩ := hs.exists_cons
      rw [escape_u, unicodeEscape_congr (Prod.ext hc rfl) hrest]
    · obtain ⟨heq, hlength⟩ := escape_other hu rest
      rw [heq] at h
      obtain rfl : 1 = n := hlength.symm.trans (congrArg Prod.snd h)
      obtain ⟨rest', rfl, -⟩ := hs.exists_cons
      rw [(escape_other hu rest').1, h]

theorem content_cons {c : Char} {rest : List Char} (hc : c ≠ '"') {value : List Char} {n : Nat} :
    content (c :: rest) = some (some value, n) ↔ ∃ a k more m, value = a :: more ∧ n = k + 1 + m ∧
      (if c = '\\' then escape rest else (if c = '\n' || c = '\r' then none else some c, 0)) = (some a, k) ∧
      content (rest.drop k) = some (some more, m) := by
  rw [content, if_neg hc]
  rcases (if c = '\\' then escape rest else (if c = '\n' || c = '\r' then none else some c, 0)) with ⟨a?, k⟩
  cases a? with
  | none => simp
  | some a =>
    constructor
    · intro h
      obtain ⟨⟨more?, m⟩, hmore, h⟩ := Option.map_eq_some_iff.1 h
      obtain ⟨hvalue, rfl⟩ := Prod.mk.inj h
      cases more? with
      | none => simp at hvalue
      | some more => exact ⟨a, k, more, m, by simpa using hvalue.symm, rfl, rfl, hmore⟩
    · rintro ⟨a', k', more, m, rfl, rfl, h, hmore⟩
      cases h
      dsimp only
      rw [hmore]
      rfl

theorem content_length {cs : List Char} {value : Option (List Char)} {n : Nat} (h : content cs = some (value, n)) :
    1 ≤ n := by
  unfold content at h
  split at h
  next => cases h
  next c rest =>
    split at h
    next =>
      cases h
      exact Nat.le_refl 1
    next =>
      obtain ⟨⟨more, m⟩, -, hn⟩ := Option.map_eq_some_iff.1 h
      obtain ⟨-, rfl⟩ := Prod.mk.inj hn
      omega

/-- An accepted string is determined by its own characters. -/
theorem content_congr {cs cs' value : List Char} {n : Nat} (h : content cs = some (some value, n))
    (hs : SameUpTo n cs cs') : content cs' = some (some value, n) := by
  induction cs using content.induct generalizing cs' value n with
  | case1 =>
    rw [content] at h
    cases h
  | case2 rest =>
    rw [content, if_pos rfl] at h
    cases h
    obtain ⟨rest', rfl, -⟩ := hs.exists_cons
    rw [content, if_pos rfl]
  | case3 c rest hc a? k hk ih =>
    obtain ⟨a, k', more, m, rfl, rfl, hvalue, hmore⟩ := (content_cons hc).1 h
    obtain rfl : k = k' := by
      simp only [dite_eq_ite] at hk
      exact congrArg Prod.snd (hk.symm.trans hvalue)
    rw [Nat.add_right_comm] at hs
    obtain ⟨rest', rfl, hrest⟩ := hs.exists_cons
    refine (content_cons hc).2 ⟨a, k, more, m, rfl, rfl, ?_, ih hmore hrest.drop⟩
    split at hvalue
    next hescape =>
      rw [if_pos hescape]
      exact escape_congr hvalue (hrest.mono (Nat.le_add_right _ _))
    next hescape => rwa [if_neg hescape]

end QuotedString

namespace BlockString

/-- A block string has three quotes at its end, and ends within the text. -/
theorem content_bounds {cs value : List Char} {n : Nat} (h : content cs = some (value, n)) :
    3 ≤ n ∧ n ≤ cs.length := by
  induction cs using content.induct generalizing value n with
  | case1 tail =>
    cases h
    simp
  | case2 rest ih =>
    rw [content] at h
    obtain ⟨⟨more, m⟩, hmore, h⟩ := Option.map_eq_some_iff.1 h
    cases h
    have hm := ih hmore
    simp only [List.length_cons]
    omega
  | case3 c rest hclose hescape ih =>
    rw [content.eq_3 c rest hclose hescape] at h
    obtain ⟨⟨more, m⟩, hmore, h⟩ := Option.map_eq_some_iff.1 h
    cases h
    have hm := ih hmore
    simp only [List.length_cons]
    omega
  | case4 => cases h

theorem content_congr {cs cs' value : List Char} {n : Nat} (h : content cs = some (value, n))
    (hs : SameUpTo n cs cs') : content cs' = some (value, n) := by
  induction cs using content.induct generalizing cs' value n with
  | case1 tail =>
    cases h
    obtain ⟨rest, rfl, -⟩ := SameUpTo.exists_append (n := 0) ['"', '"', '"'] hs
    rfl
  | case2 rest ih =>
    rw [content] at h
    obtain ⟨⟨more, m⟩, hmore, h⟩ := Option.map_eq_some_iff.1 h
    cases h
    rw [Nat.add_comm] at hs
    obtain ⟨rest', rfl, hrest⟩ := SameUpTo.exists_append ['\\', '"', '"', '"'] hs
    change (content rest').map _ = _
    rw [ih hmore hrest]
    rfl
  | case3 c rest hclose hescape ih =>
    rw [content.eq_3 c rest hclose hescape] at h
    obtain ⟨⟨more, m⟩, hmore, h⟩ := Option.map_eq_some_iff.1 h
    cases h
    have hm := (content_bounds hmore).1
    obtain ⟨rest', rfl, hrest⟩ := hs.exists_cons
    rw [content.eq_3, ih hmore hrest]
    · rfl
    -- the next three characters are the same, so neither quotes nor an escape stands here
    · rintro tail rfl rfl
      obtain ⟨tail', rfl, -⟩ := SameUpTo.exists_append (n := 0) ['"', '"'] (hrest.mono (m := 2) (by omega)).symm
      exact hclose tail' rfl rfl
    · rintro after rfl rfl
      obtain ⟨after', rfl, -⟩ := SameUpTo.exists_append (n := 0) ['"', '"', '"'] (hrest.mono hm).symm
      exact hescape after' rfl rfl
  | case4 => cases h

end BlockString

namespace Source

/-! ## Tokens -/

theorem scanToken_quote (cs : List Char) :
    scanToken '"' cs =
      if cs.take 2 = ['"', '"'] then
        match BlockString.content (cs.drop 2) with
        | some (content, n) => (some (.string (String.ofList (BlockString.value content))), n + 2)
        | none => (none, cs.length)
      else
        match QuotedString.content cs with
        | some (value, n) => (value.map fun cs => .string (String.ofList cs), n)
        | none => (none, cs.length) := rfl

theorem scanToken_quote_congr {cs cs' : List Char} {t : Token} {m : Nat} (h : scanToken '"' cs = (some t, m))
    (hs : SameUpTo (m + 1) cs cs') : scanToken '"' cs' = (some t, m) := by
  rw [scanToken_quote] at h ⊢
  split at h
  next hblock =>
    split at h
    next value n hvalue =>
      cases h
      have hn := (BlockString.content_bounds hvalue).1
      have htwo : cs'.take 2 = ['"', '"'] := (hs.mono (m := 2) (by omega)).symm.trans hblock
      rw [if_pos htwo, BlockString.content_congr hvalue (SameUpTo.drop (hs.mono (by omega)))]
    next => cases h
  next hblock =>
    split at h
    next value n hvalue =>
      obtain ⟨ht, rfl⟩ := Prod.mk.inj h
      obtain ⟨value, rfl, -⟩ := Option.map_eq_some_iff.1 ht
      have hn := QuotedString.content_length hvalue
      have htwo : cs'.take 2 = cs.take 2 := (hs.mono (by omega)).symm
      rw [htwo, if_neg hblock, QuotedString.content_congr hvalue (hs.mono (Nat.le_succ _))]
      exact Prod.ext ht rfl
    next => cases h

/-- A token is determined by its own characters and the one after it. -/
theorem scanToken_congr {c : Char} {cs cs' : List Char} {t : Token} {m : Nat} (h : scanToken c cs = (some t, m))
    (hs : SameUpTo (m + 1) cs cs') : scanToken c cs' = (some t, m) := by
  by_cases hquote : c = '"'
  · subst hquote
    exact scanToken_quote_congr h hs
  unfold scanToken at h ⊢
  split at h
  next p hp => exact h
  split at h
  next hname =>
    cases h
    rw [if_pos hname, hs.takeWhile]
  next hname =>
  rw [if_neg hname]
  split at h
  next hnumber =>
    obtain ⟨ht, rfl⟩ := Prod.mk.inj h
    split at ht
    next haccepted =>
      have hscan : Number.scan (c :: cs) = ⟨true, (Number.scan (c :: cs)).length⟩ := by rw [← haccepted]
      rw [if_pos hnumber, Number.local_scan hscan ((hs.cons c).mono (by omega))]
      exact Prod.ext ht rfl
    next => cases ht
  next hnumber =>
  rw [if_neg hnumber]
  split at h
  next hdot =>
    split at h
    next hspread =>
      cases h
      have htwo : cs'.take 2 = ['.', '.'] := (hs.mono (m := 2) (by omega)).symm.trans hspread
      rw [if_pos hdot, if_pos htwo]
    next => cases h
  next hdot => cases h

theorem ofPunctuator?_closeBrace {c : Char} (h : Token.ofPunctuator? c = some .closeBrace) : c = '\x7d' := by
  unfold Token.ofPunctuator? at h
  split at h <;> first | rfl | cases h

theorem scanToken_closeBrace {c : Char} {cs : List Char} {m : Nat} (h : scanToken c cs = (some .closeBrace, m)) :
    c = '\x7d' ∧ m = 0 := by
  unfold scanToken at h
  split at h
  next p hp =>
    obtain ⟨hclose, rfl⟩ := Prod.mk.inj h
    obtain rfl := Option.some.inj hclose
    exact ⟨ofPunctuator?_closeBrace hp, rfl⟩
  next hp =>
    split at h
    next => cases h
    split at h
    next =>
      dsimp only at h
      split at h <;> cases h
    split at h
    next => split at h <;> cases h
    split at h
    next =>
      split at h
      · split at h <;> cases h
      · split at h
        next value _ _ => cases value <;> cases h
        next => cases h
    next => cases h

end Source

end TypedQuery
