/-
The tokens of a text, piece by piece. `tokensOf` is what lenient reading makes
of a text. Each lemma says what one piece at the head of a text adds to the
tokens of the rest: nothing for ignored characters and for strings that are
refused, one token for a punctuator, a name or a string, and its own tokens
for any text without a stray stretch (`tokensOf_lexed`). Names, numbers and
quotes end where they do only in front of a character that does not continue
them (`stops`).
-/
import TypedQuery.Introspection
import TypedQuery.Proofs.Lexing

namespace TypedQuery

/-- What follows ends a name, a number and a pair of quotes. -/
def stops (rest : List Char) : Bool := rest.head?.all fun c => !isNameContinue c && c ≠ '.' && c ≠ '"'

/-- A letter or underscore, then letters, underscores and digits. -/
def isName (n : String) : Bool :=
  match n.toList with
  | [] => false
  | c :: w => isNameStart c && w.all isNameContinue

theorem isName_iff {n : String} : isName n = true ↔
    ∃ c w, n.toList = c :: w ∧ isNameStart c = true ∧ ∀ c' ∈ w, isNameContinue c' = true := by
  unfold isName
  split
  next h => simp [h]
  next c w h =>
    simp only [h, List.cons.injEq, Bool.and_eq_true, List.all_eq_true]
    constructor
    · exact fun hw => ⟨c, w, ⟨rfl, rfl⟩, hw⟩
    · rintro ⟨_, _, ⟨rfl, rfl⟩, hw⟩
      exact hw

theorem isNameContinue_of_isNameStart {c : Char} (h : isNameStart c = true) : isNameContinue c = true := by
  simp only [isNameStart, isNameContinue, Char.isAlphanum, Bool.or_eq_true] at h ⊢
  exact h.imp_left .inl

theorem takeWhile_of_stops {rest : List Char} (h : stops rest = true) {p : Char → Bool}
    (hp : ∀ c, p c = true → isNameContinue c = true) : rest.takeWhile p = [] := by
  cases rest with
  | nil => rfl
  | cons c rest =>
    refine List.takeWhile_cons_of_neg fun hc => ?_
    simp [stops, hp c hc] at h

/-! ## Numbers before a stop -/

namespace Number

/-- A number that is the whole of a text is the same in front of what stops it. -/
def Ends (f : List Char → Scan) : Prop :=
  ∀ ⦃w n⦄, f w = ⟨true, n⟩ → w.length ≤ n → n = w.length ∧ ∀ rest, stops rest = true → f (w ++ rest) = ⟨true, n⟩

theorem ends_finish : Ends finish := by
  intro w n h hn
  obtain rfl : n = 0 := by
    unfold finish at h
    split at h
    next => simp [refused] at h
    next => simpa [eq_comm] using h
  obtain rfl := List.length_eq_zero_iff.1 (Nat.le_zero.1 hn)
  refine ⟨rfl, fun rest hrest => ?_⟩
  cases rest with
  | nil => rfl
  | cons c rest =>
    simp only [stops, List.head?_cons, Option.all_some, Bool.and_eq_true, Bool.not_eq_true', decide_eq_true_eq] at hrest
    have hstart : isNameStart c = false :=
      Bool.eq_false_iff.2 fun hc => Bool.eq_false_iff.1 hrest.1.1 (isNameContinue_of_isNameStart hc)
    simp [finish, hstart, hrest.1.2]

theorem isNameContinue_of_isDigit (c : Char) (h : c.isDigit = true) : isNameContinue c = true := by
  simp [isNameContinue, Char.isAlphanum, h]

theorem takeWhile_digits_append {w rest : List Char} (h : stops rest = true) :
    (w ++ rest).takeWhile Char.isDigit = w.takeWhile Char.isDigit := by
  rw [List.takeWhile_append, takeWhile_of_stops h isNameContinue_of_isDigit, List.append_nil]
  split
  next hall => exact (List.takeWhile_prefix _).eq_of_length hall |>.symm
  next => rfl

theorem ends_digits {next : List Char → Scan} (hnext : Ends next) : Ends (digits next) := by
  intro w n h hn
  unfold digits at h ⊢
  dsimp only at h ⊢
  have hle := (List.takeWhile_prefix (p := Char.isDigit) (l := w)).length_le
  split at h
  next => simp [refused] at h
  next hne =>
    obtain ⟨k, hk, rfl⟩ := after_eq.1 h
    obtain ⟨hlength, hrests⟩ := hnext hk (by rw [List.length_drop]; omega)
    rw [List.length_drop] at hlength
    refine ⟨by omega, fun rest hrest => ?_⟩
    rw [takeWhile_digits_append hrest, if_neg hne, List.drop_append_of_le_length hle]
    exact after_eq.2 ⟨k, hrests rest hrest, rfl⟩

/-- One character decides whether to go on with `f` after it or with `g` at it; what stops a number
does not decide for `f` where the number may end. -/
theorem ends_branch {p : Option Char → Prop} [DecidablePred p] {f g : List Char → Scan} (hf : Ends f) (hg : Ends g)
    (hnone : ¬ p none) (hp : ∀ n, g [] = ⟨true, n⟩ → ∀ rest, stops rest = true → ¬ p rest.head?) :
    Ends fun cs => if p cs.head? then (f cs.tail).after 1 else g cs := by
  intro w n h hn
  dsimp only at h ⊢
  cases w with
  | nil =>
    rw [List.head?_nil, if_neg hnone] at h
    refine (hg h hn).imp_right fun hrests rest hrest => ?_
    rw [List.nil_append, if_neg (hp n h rest hrest)]
    exact hrests rest hrest
  | cons c w =>
    have hhead : ∀ rest : List Char, p (c :: w ++ rest).head? ↔ p (c :: w).head? := fun _ => .rfl
    split at h
    next hc =>
      obtain ⟨k, hk, rfl⟩ := after_eq.1 h
      rw [List.tail_cons] at hk
      obtain ⟨rfl, hrests⟩ := hf hk (by simp only [List.length_cons] at hn; omega)
      refine ⟨by rw [List.length_cons, Nat.add_comm], fun rest hrest => ?_⟩
      rw [if_pos ((hhead rest).2 hc)]
      exact after_eq.2 ⟨_, hrests rest hrest, rfl⟩
    next hc =>
      refine (hg h hn).imp_right fun hrests rest hrest => ?_
      rw [if_neg (mt (hhead rest).1 hc)]
      exact hrests rest hrest

theorem ends_exponent : Ends exponent := by
  have htail : Ends exponentTail :=
    ends_branch (p := fun c? => c?.any fun c => c = '+' || c = '-') (ends_digits ends_finish) (ends_digits ends_finish)
      (by simp) fun n h => by cases h
  refine ends_branch (p := fun c? => c?.any fun c => c = 'e' || c = 'E') htail ends_finish (by simp) ?_
  intro _ _ rest hrest hc
  cases rest with
  | nil => cases hc
  | cons c rest =>
    have hletter : c = 'e' ∨ c = 'E' := by simpa using hc
    rcases hletter with rfl | rfl <;> simp [stops, isNameContinue] at hrest

theorem ends_fraction : Ends fraction := by
  refine ends_branch (p := (· = some '.')) (ends_digits ends_exponent) ends_exponent (by simp) ?_
  intro _ _ rest hrest hc
  simp [stops, hc] at hrest

theorem ends_unsigned : Ends unsigned := by
  have hzero : Ends fun cs => if cs.head?.any Char.isDigit then ⟨false, 1⟩ else fraction cs := by
    intro w n h hn
    dsimp only at h ⊢
    split at h
    next => simp at h
    next hw =>
      refine (ends_fraction h hn).imp_right fun hrests rest hrest => ?_
      have hdigit : ¬ (w ++ rest).head?.any Char.isDigit = true := by
        cases w with
        | cons c w => simpa using hw
        | nil =>
          cases rest with
          | nil => simp
          | cons c rest =>
            intro hdigit
            have hdigit : c.isDigit = true := by simpa using hdigit
            simp [stops, isNameContinue_of_isDigit c hdigit] at hrest
      rw [if_neg hdigit]
      exact hrests rest hrest
  exact ends_branch (p := (· = some '0')) hzero (ends_digits ends_fraction) (by simp) fun n h => by cases h

theorem ends_scan : Ends scan := by
  rw [funext scan_eq]
  exact ends_branch (p := (· = some '-')) ends_unsigned ends_unsigned (by simp) fun n h => by cases h

theorem scan_pos {cs : List Char} {n : Nat} (h : scan cs = ⟨true, n⟩) : 1 ≤ n := by
  have hunsigned : ∀ {cs n}, unsigned cs = ⟨true, n⟩ → 1 ≤ n := by
    intro cs n h
    unfold unsigned at h
    split at h
    next =>
      obtain ⟨k, -, rfl⟩ := after_eq.1 h
      omega
    next =>
      unfold digits at h
      dsimp only at h
      split at h
      next => simp [refused] at h
      next =>
        obtain ⟨k, -, rfl⟩ := after_eq.1 h
        omega
  rw [scan_eq] at h
  split at h
  next =>
    obtain ⟨k, -, rfl⟩ := after_eq.1 h
    omega
  next => exact hunsigned h

end Number

/-! ## Strings -/

namespace QuotedString

/-- A string ends within the text. -/
theorem content_le {cs : List Char} {value : Option (List Char)} {n : Nat} (h : content cs = some (value, n)) :
    n ≤ cs.length := by
  induction cs using content.induct generalizing value n with
  | case1 =>
    rw [content] at h
    cases h
  | case2 rest =>
    rw [content, if_pos rfl] at h
    cases h
    simp
  | case3 c rest hc a? k hk ih =>
    simp only [dite_eq_ite] at hk
    rw [content, if_neg hc, hk] at h
    obtain ⟨⟨more, m⟩, hmore, h⟩ := Option.map_eq_some_iff.1 h
    obtain ⟨-, rfl⟩ := Prod.mk.inj h
    have hm := ih hmore
    have hpos := content_length hmore
    simp only [List.length_drop, List.length_cons] at hm ⊢
    omega

/-- A quote right after the text closes the string, whatever follows. -/
def Closes (text : List Char) (value : Option (List Char)) : Prop :=
  ∀ rest, content (text ++ '"' :: rest) = some (value, text.length + 1)

theorem closes_nil : Closes [] (some []) := by
  intro rest
  rw [List.nil_append, content, if_pos rfl]
  rfl

/-- The first character or escape, and what follows it. -/
theorem content_step {c : Char} {rest : List Char} {a? : Option Char} {more? : Option (List Char)} {k m : Nat}
    (hc : c ≠ '"')
    (hfirst : (if c = '\\' then escape rest else (if c = '\n' || c = '\r' then none else some c, 0)) = (a?, k))
    (hmore : content (rest.drop k) = some (more?, m)) :
    content (c :: rest) = some ((do pure ((← a?) :: (← more?))), k + 1 + m) := by
  rw [content, if_neg hc, hfirst]
  exact Option.map_eq_some_iff.2 ⟨_, hmore, rfl⟩

theorem Closes.cons {c : Char} {text : List Char} {value : Option (List Char)} (h : Closes text value)
    (hquote : c ≠ '"') (hbackslash : c ≠ '\\') :
    Closes (c :: text)
      ((if c = '\n' || c = '\r' then none else some c).bind fun a => value.bind fun more => some (a :: more)) := by
  intro rest
  refine (content_step hquote (if_neg hbackslash) (h rest)).trans ?_
  rw [List.length_cons, Nat.zero_add, Nat.add_comm]
  rfl

theorem Closes.escaped {c : Char} {text : List Char} {value : Option (List Char)} (h : Closes text value)
    (hc : c = '\\' ∨ c = '"') : Closes ('\\' :: c :: text) (value.bind fun more => some (c :: more)) := by
  intro rest
  have hfirst : escape (c :: (text ++ '"' :: rest)) = (some c, 1) := by
    rcases hc with rfl | rfl <;> rfl
  refine (content_step (by decide) ((if_pos rfl).trans hfirst) (h rest)).trans ?_
  rw [List.length_cons, List.length_cons, Nat.add_comm]
  rfl

/-- Escaped text is closed by the next quote, though its value is refused if it has a line break in it. -/
theorem closes_escapeQuotes (text : List Char) : ∃ value, Closes (Introspection.escapeQuotes text) value := by
  induction text with
  | nil => exact ⟨_, closes_nil⟩
  | cons c text ih =>
    obtain ⟨value, hvalue⟩ := ih
    rw [Introspection.escapeQuotes, List.flatMap_cons]
    split
    next hescaped => exact ⟨_, hvalue.escaped (by simpa using hescaped)⟩
    next hplain =>
      obtain ⟨hbackslash, hquote⟩ : c ≠ '\\' ∧ c ≠ '"' := by simpa using hplain
      exact ⟨_, hvalue.cons hquote hbackslash⟩

/-- Text without quotes, backslashes and line breaks stands for itself. -/
theorem closes_plain {text : List Char} (h : ∀ c ∈ text, c ≠ '"' ∧ c ≠ '\\' ∧ c ≠ '\n' ∧ c ≠ '\r') :
    Closes text (some text) := by
  induction text with
  | nil => exact closes_nil
  | cons c text ih =>
    obtain ⟨⟨hquote, hbackslash, hfeed, hreturn⟩, htext⟩ := List.forall_mem_cons.1 h
    simpa [hfeed, hreturn] using (ih htext).cons hquote hbackslash

end QuotedString

namespace BlockString

open Introspection (escapeTripleQuotes)

/-- Escaping makes no quotes out of other characters. -/
theorem exists_of_escapeTripleQuotes_eq {text rest after : List Char} {c : Char} (hc : c ≠ '"') (n : Nat)
    (h : escapeTripleQuotes text ++ c :: rest = List.replicate n '"' ++ after) :
    ∃ after', text = List.replicate n '"' ++ after' := by
  induction n generalizing text with
  | zero => exact ⟨text, rfl⟩
  | succ n ih =>
    rw [List.replicate_succ, List.cons_append] at h
    induction text using Introspection.escapeTripleQuotes.induct with
    | case1 text =>
      rw [escapeTripleQuotes] at h
      cases h
    | case2 c' text hne =>
      rw [escapeTripleQuotes.eq_2 c' text hne, List.cons_append] at h
      obtain ⟨rfl, htext⟩ := List.cons.inj h
      obtain ⟨after', rfl⟩ := ih htext
      exact ⟨after', rfl⟩
    | case3 =>
      rw [escapeTripleQuotes] at h
      exact absurd (List.cons.inj h).1 hc

/-- Text with its triple quotes escaped is read back, up to what is no quote. -/
theorem content_escapeTripleQuotes (text : List Char) {c : Char} (hc : c ≠ '"') {rest value : List Char} {n : Nat}
    (h : content (c :: rest) = some (value, n)) :
    content (escapeTripleQuotes text ++ c :: rest) = some (text ++ value, (escapeTripleQuotes text).length + n) := by
  induction text using Introspection.escapeTripleQuotes.induct with
  | case1 text ih =>
    rw [escapeTripleQuotes]
    change (content (escapeTripleQuotes text ++ c :: rest)).map _ = _
    rw [ih]
    simp only [Option.map_some, List.length_cons, List.cons_append, Option.some.injEq, Prod.mk.injEq, true_and]
    omega
  | case2 c' text hne ih =>
    rw [escapeTripleQuotes.eq_2 c' text hne, List.cons_append, content.eq_3, ih]
    · simp only [Option.map_some, List.length_cons, List.cons_append, Option.some.injEq, Prod.mk.injEq, true_and]
      omega
    -- neither quotes nor an escape begin here, since they would begin in the text itself
    · rintro after rfl hafter
      obtain ⟨after', rfl⟩ := exists_of_escapeTripleQuotes_eq hc 2 hafter
      exact hne after' rfl rfl
    · rintro after rfl hafter
      obtain ⟨after', rfl⟩ := exists_of_escapeTripleQuotes_eq hc 3 hafter
      cases hafter
  | case3 => simpa [escapeTripleQuotes] using h

/-- After escaped text the closing quotes stand on a line of their own. -/
theorem content_closing (indent : List Char) (hindent : ∀ c ∈ indent, c = ' ') (rest : List Char) :
    content ('\n' :: indent ++ '"' :: '"' :: '"' :: rest) = some ('\n' :: indent, indent.length + 4) := by
  have hclosing : content (indent ++ '"' :: '"' :: '"' :: rest) = some (indent, indent.length + 3) := by
    induction indent with
    | nil => rfl
    | cons c indent ih =>
      obtain ⟨rfl, hmore⟩ := List.forall_mem_cons.1 hindent
      rw [List.cons_append, content.eq_3 _ _ (by simp) (by simp), ih hmore]
      rfl
  rw [List.cons_append, content.eq_3 _ _ (by simp) (by simp), hclosing]
  rfl

end BlockString

namespace Source

/-! ## Tokens at the head of a text -/

/-- The tokens of a text; what is no token is left out. -/
def tokensOf (text : List Char) : List Token := (lexemes text).map (·.token)

variable {c : Char} {w rest : List Char}

theorem tokensOf_nil : tokensOf [] = [] := by rw [tokensOf, lexemes, scan_nil rfl]; rfl

theorem tokensOf_cons (hc : afterIgnored? false c = none) :
    tokensOf (c :: rest) = (scanToken c rest).1.toList ++ tokensOf (rest.drop (scanToken c rest).2) := by
  have hblank : Blank [] c := blank_of_all rfl hc
  have hscan : scan ([] ++ c :: rest) = _ := scan_blank hblank
  rw [List.nil_append] at hscan
  rw [tokensOf, lexemes, hscan]
  cases (scanToken c rest).1 <;> rfl

/-- Ignored characters are ignored. -/
theorem tokensOf_ignored (hc : isIgnored c = true) : tokensOf (c :: rest) = tokensOf rest := by
  have hlength : ignoredLength false (c :: rest) = ignoredLength false rest + 1 := by
    simp [ignoredLength_cons, afterIgnored?, hc, Nat.add_comm]
  have hdrop : (c :: rest).drop (ignoredLength false (c :: rest)) = rest.drop (ignoredLength false rest) := by
    rw [hlength, List.drop_succ_cons]
  rw [tokensOf, tokensOf, lexemes, lexemes, scan.eq_def, scan.eq_def rest]
  dsimp only
  split
  next h =>
    rw [hdrop] at h
    split
    next => rfl
    next h' => cases h.symm.trans h'
  next c₁ rest₁ h =>
    rw [hdrop] at h
    split
    next h' => cases h.symm.trans h'
    next c₂ rest₂ h' =>
      obtain ⟨rfl, rfl⟩ := List.cons.inj (h.symm.trans h')
      cases (scanToken c₁ rest₁).1 <;> rfl

theorem tokensOf_ignored_append {blank : List Char} (h : ∀ c ∈ blank, isIgnored c = true) :
    tokensOf (blank ++ rest) = tokensOf rest := by
  induction blank with
  | nil => rfl
  | cons c blank ih =>
    obtain ⟨hc, hblank⟩ := List.forall_mem_cons.1 h
    rw [List.cons_append, tokensOf_ignored hc, ih hblank]

theorem tokensOf_punctuator {t : Token} (hc : Token.ofPunctuator? c = some t) :
    tokensOf (c :: rest) = t :: tokensOf rest := by
  have hplain : afterIgnored? false c = none := by
    unfold Token.ofPunctuator? at hc
    split at hc <;> first | rfl | cases hc
  rw [tokensOf_cons hplain, scanToken, hc]
  rfl

theorem ofPunctuator?_nameStart (hc : isNameStart c = true) :
    Token.ofPunctuator? c = none ∧ afterIgnored? false c = none := by
  constructor
  · unfold Token.ofPunctuator?
    split <;> first | rfl | simp [isNameStart] at hc
  · have hne : ∀ c', isNameStart c' = false → c ≠ c' := by
      rintro c' hc' rfl
      rw [hc] at hc'
      cases hc'
    simp [afterIgnored?, isIgnored, hne ' ' rfl, hne '\t' rfl, hne '\n' rfl, hne '\r' rfl, hne ',' rfl,
      hne '\uFEFF' rfl, hne '#' rfl]

theorem scanToken_name (hc : isNameStart c = true) (hw : ∀ c' ∈ w, isNameContinue c' = true)
    (hrest : stops rest = true) :
    scanToken c (w ++ rest) = (some (.name (String.ofList (c :: w))), w.length) := by
  have htail : (w ++ rest).takeWhile isNameContinue = w := by
    rw [List.takeWhile_append_of_pos hw, takeWhile_of_stops hrest fun _ h => h, List.append_nil]
  unfold scanToken
  rw [(ofPunctuator?_nameStart hc).1]
  dsimp only
  rw [if_pos hc, htail]

/-- A name is one token in front of what stops it. -/
theorem tokensOf_name {n : String} (hn : isName n = true) (hrest : stops rest = true) :
    tokensOf (n.toList ++ rest) = .name n :: tokensOf rest := by
  obtain ⟨c, w, hw, hc, hall⟩ := isName_iff.1 hn
  rw [hw, List.cons_append, tokensOf_cons (ofPunctuator?_nameStart hc).2, scanToken_name hc hall hrest]
  simp [← hw]

/-- A quoted string is at most one token: none if its value is refused. -/
theorem tokensOf_quoted {value : Option (List Char)}
    (hclosed : QuotedString.content (w ++ '"' :: rest) = some (value, w.length + 1))
    (hblock : (w ++ '"' :: rest).take 2 ≠ ['"', '"']) :
    tokensOf ('"' :: (w ++ '"' :: rest)) =
      (value.map fun cs => .string (String.ofList cs)).toList ++ tokensOf rest := by
  have hdrop : (w ++ '"' :: rest).drop (w.length + 1) = rest := by
    simp [List.drop_append]
  rw [tokensOf_cons rfl, scanToken_quote, if_neg hblock, hclosed]
  dsimp only
  rw [hdrop]

theorem tokensOf_block {value : List Char} (hclosed : BlockString.content (w ++ rest) = some (value, w.length)) :
    tokensOf ('"' :: '"' :: '"' :: (w ++ rest)) =
      .string (String.ofList (BlockString.value value)) :: tokensOf rest := by
  have hscan : scanToken '"' ('"' :: '"' :: (w ++ rest)) =
      (some (.string (String.ofList (BlockString.value value))), w.length + 2) := by
    rw [scanToken_quote, if_pos (by rfl), List.drop_succ_cons, List.drop_succ_cons, List.drop_zero, hclosed]
  rw [tokensOf_cons rfl, hscan]
  simp

/-! ## Texts that are all tokens -/

theorem scanToken_quote_stops {t : Token} {m : Nat} (hrest : stops rest = true) (h : scanToken '"' w = (some t, m))
    (hm : w.length ≤ m) : scanToken '"' (w ++ rest) = (some t, w.length) := by
  rw [scanToken_quote] at h ⊢
  split at h
  next hblock =>
    split at h
    next value n hvalue =>
      cases h
      have hle := (BlockString.content_bounds hvalue).2
      have htwo : 2 ≤ w.length := by
        have := congrArg List.length hblock
        simp only [List.length_take, List.length_cons, List.length_nil] at this
        omega
      rw [List.length_drop] at hle
      have hwhole : SameUpTo n (w.drop 2) ((w ++ rest).drop 2) := by
        rw [List.drop_append_of_le_length htwo, SameUpTo,
          List.take_append_of_le_length (by rw [List.length_drop]; omega)]
      rw [List.take_append_of_le_length htwo, if_pos hblock, BlockString.content_congr hvalue hwhole]
      exact Prod.ext rfl (by dsimp only; omega)
    next => cases h
  next hblock =>
    split at h
    next value n hvalue =>
      obtain ⟨ht, rfl⟩ := Prod.mk.inj h
      obtain ⟨value, rfl, -⟩ := Option.map_eq_some_iff.1 ht
      have hle := QuotedString.content_le hvalue
      have hwhole : SameUpTo n w (w ++ rest) := by rw [SameUpTo, List.take_append_of_le_length hle]
      have htwo : (w ++ rest).take 2 ≠ ['"', '"'] := by
        rcases w with _ | ⟨c, _ | ⟨c', w⟩⟩
        · cases rest <;> simp_all [stops]
        · cases rest <;> simp_all [stops]
        · simpa using hblock
      rw [if_neg htwo, QuotedString.content_congr hvalue hwhole]
      exact Prod.ext ht (by dsimp only; omega)
    next => cases h

/-- A token that is the whole of a text is the same in front of what stops it. -/
theorem scanToken_stops {t : Token} {m : Nat} (hrest : stops rest = true) (h : scanToken c w = (some t, m))
    (hm : w.length ≤ m) : scanToken c (w ++ rest) = (some t, w.length) := by
  by_cases hquote : c = '"'
  · subst hquote
    exact scanToken_quote_stops hrest h hm
  unfold scanToken at h ⊢
  split at h
  next p hp =>
    obtain ⟨ht, rfl⟩ := Prod.mk.inj h
    obtain rfl := List.length_eq_zero_iff.1 (Nat.le_zero.1 hm)
    rw [ht]
    rfl
  next hp =>
  split at h
  next hname =>
    obtain ⟨ht, rfl⟩ := Prod.mk.inj h
    have hall : w.takeWhile isNameContinue = w :=
      (List.takeWhile_prefix _).eq_of_length (Nat.le_antisymm (List.takeWhile_prefix _).length_le hm)
    have htail : (w ++ rest).takeWhile isNameContinue = w := by
      rw [List.takeWhile_append, hall, if_pos rfl, takeWhile_of_stops hrest fun _ h => h, List.append_nil]
    rw [hall] at ht
    rw [if_pos hname, ← ht]
    dsimp only
    rw [htail]
  next hname =>
  rw [if_neg hname]
  split at h
  next hnumber =>
    obtain ⟨ht, rfl⟩ := Prod.mk.inj h
    split at ht
    next haccepted =>
      have hscan : Number.scan (c :: w) = ⟨true, (Number.scan (c :: w)).length⟩ := by rw [← haccepted]
      have hpos := Number.scan_pos hscan
      obtain ⟨hlength, hrests⟩ := Number.ends_scan hscan (by rw [List.length_cons]; omega)
      have hscan' : Number.scan (c :: (w ++ rest)) = ⟨true, (Number.scan (c :: w)).length⟩ := hrests rest hrest
      rw [if_pos hnumber, hscan', hlength]
      exact Prod.ext ht rfl
    next => cases ht
  next hnumber =>
  rw [if_neg hnumber]
  split at h
  next hdot =>
    split at h
    next hspread =>
      cases h
      have hw : w = ['.', '.'] := by rwa [List.take_of_length_le hm] at hspread
      subst hw
      rw [if_pos hdot]
      rfl
    next => cases h
  next hdot => cases h

theorem Scans.stops {x : Lexeme} (h : Scans [] x) (hrest : stops rest = true) : Scans rest x := by
  obtain ⟨c, w, m, htext, hblank, htoken, htake, hdrop⟩ := h
  rw [List.append_nil] at htoken hdrop
  refine ⟨c, w, w.length, htext, hblank, scanToken_stops hrest htoken (List.drop_eq_nil_iff.1 hdrop), ?_, ?_⟩
  · exact List.take_left
  · exact List.drop_left

/-- Lexemes that are the whole of a text are the same in front of what stops the last of them. -/
theorem Lexes.stops {xs : List Lexeme} (h : Lexes [] xs) (hrest : stops rest = true) : Lexes rest xs := by
  induction xs with
  | nil => exact .nil
  | cons x xs ih =>
    obtain ⟨head, tail⟩ := lexes_cons.1 h
    refine lexes_cons.2 ⟨?_, ih tail⟩
    cases hxs : written xs with
    | nil =>
      rw [hxs] at head
      exact head.stops hrest
    | cons c more =>
      rw [hxs, List.append_nil] at head
      exact head.congr (by simp) rfl

theorem tokensOf_lexed {xs : List Lexeme} (h : scan w = xs.map some) (hw : written xs = w) (hrest : stops rest = true) :
    tokensOf (w ++ rest) = xs.map (·.token) ++ tokensOf rest := by
  obtain ⟨rest', hwhole, hlexes, -⟩ := lexes_of_scan h
  obtain rfl : rest' = [] := by simpa [hw] using hwhole
  have hscan := (hlexes.stops hrest).scan_eq
  rw [hw] at hscan
  rw [tokensOf, tokensOf, lexemes, lexemes, hscan, List.filterMap_append, List.map_append]
  simp [List.filterMap_map]

end Source

end TypedQuery
