/-
Descriptions through schema text. A description should be read as it is if it
has no line break, and in the normal form of block strings if it has one
(`intended`). Between triple quotes it is, but for the blanks that a single
line begins with (`value_block`, `normalForm_line`). Between single quotes
nothing is escaped, so a text that has a backslash or a carriage return in it
is read as another one or not at all (`content_taken`). `Survives` says which
descriptions are read as they should be.
-/
import TypedQuery.Proofs.DeprecationBlind

namespace TypedQuery

/-! ## Block strings -/

namespace BlockString

/-- Lines without their common indentation, and without blank ones at both ends. -/
def flush (ls : List (List Char)) : List (List Char) := trimBlank (ls.map (·.drop (commonIndentation ls)))

/-- The text without the common indentation of its lines and without blank lines at both ends. -/
def normalForm (text : List Char) : List Char := ['\n'].intercalate (flush (lines text))

def isBreak (c : Char) : Bool := c = '\n' || c = '\r'

theorem isBreak_eq_false {c : Char} : isBreak c = false ↔ c ≠ '\n' ∧ c ≠ '\r' := by simp [isBreak]

section lines

variable {text text' indent : List Char} {ls ls' : List (List Char)} {c : Char}

theorem lines_break (hc : isBreak c = true) (hnext : c = '\r' → text.head? ≠ some '\n') :
    lines (c :: text) = [] :: lines text := by
  rw [lines.eq_3 c text fun rest hr htext => hnext hr (by rw [htext]; rfl)]
  exact if_pos (by simpa [isBreak] using hc)

theorem lines_cons (hc : isBreak c = false) {line : List Char} (h : lines text = line :: ls) :
    lines (c :: text) = (c :: line) :: ls := by
  rw [lines.eq_3 c text fun rest hr _ => by simp [isBreak, hr] at hc, if_neg (by simpa [isBreak] using hc), h]

/-- A text without line breaks is one line. -/
theorem lines_eq_singleton (h : ∀ c ∈ text, isBreak c = false) : lines text = [text] := by
  induction text with
  | nil => rfl
  | cons c text ih =>
    obtain ⟨hc, htext⟩ := List.forall_mem_cons.1 h
    exact lines_cons hc (ih htext)

/-- The same lines, of which there is at least one, and then blank ones. -/
def SameButBlank (ls ls' : List (List Char)) : Prop :=
  ∃ line common blanks blanks', ls = line :: common ++ blanks ∧ ls' = line :: common ++ blanks' ∧
    blanks.all isBlank = true ∧ blanks'.all isBlank = true

theorem SameButBlank.cons (h : SameButBlank ls ls') (line : List Char) : SameButBlank (line :: ls) (line :: ls') := by
  obtain ⟨line', common, blanks, blanks', rfl, rfl, hblanks⟩ := h
  exact ⟨line, line' :: common, blanks, blanks', rfl, rfl, hblanks⟩

theorem SameButBlank.push (h : SameButBlank (lines text) (lines text')) (hc : isBreak c = false) :
    SameButBlank (lines (c :: text)) (lines (c :: text')) := by
  obtain ⟨line, common, blanks, blanks', hlines, hlines', hblanks⟩ := h
  exact ⟨c :: line, common, blanks, blanks', lines_cons hc hlines, lines_cons hc hlines', hblanks⟩

/-- A line of blanks after the text is one more blank line, or takes the place of the one after a carriage return that
the text ends in. -/
theorem lines_append (hindent : ∀ c ∈ indent, c = ' ') (text : List Char) :
    SameButBlank (lines text) (lines (text ++ '\n' :: indent)) := by
  have hline : lines indent = [indent] :=
    lines_eq_singleton fun c hc => by
      rw [hindent c hc]
      rfl
  have hblank : [indent].all isBlank = true := by
    rw [List.all_cons, List.all_nil, Bool.and_true]
    exact List.all_eq_true.2 fun c hc => by
      rw [hindent c hc]
      rfl
  induction text using lines.induct with
  | case1 =>
    refine ⟨[], [], [], [indent], rfl, ?_, rfl, hblank⟩
    rw [List.nil_append, lines_break rfl (fun h => by cases h), hline]
    rfl
  | case2 rest ih =>
    rw [List.cons_append, List.cons_append, lines, lines]
    exact ih.cons []
  | case3 c rest hnext hc ih =>
    have hhead : c = '\r' → rest.head? ≠ some '\n' := by
      intro hr hhead
      obtain ⟨rest', rfl⟩ := List.head?_eq_some_iff.1 hhead
      exact hnext rest' hr rfl
    by_cases hlast : c = '\r' ∧ rest = []
    · obtain ⟨rfl, rfl⟩ := hlast
      refine ⟨[], [], [[]], [indent], rfl, ?_, rfl, hblank⟩
      rw [List.cons_append, List.nil_append, lines, hline]
      rfl
    · have hhead' : c = '\r' → (rest ++ '\n' :: indent).head? ≠ some '\n' := by
        intro hr
        rw [List.head?_append_of_ne_nil _ fun hnil => hlast ⟨hr, hnil⟩]
        exact hhead hr
      rw [List.cons_append, lines_break hc hhead, lines_break hc hhead']
      exact ih.cons []
  | case4 c rest _ hc _ ih | case5 c rest _ hc _ _ _ ih => exact ih.push (by simpa [isBreak] using hc)

end lines

section flush

variable {ls blanks : List (List Char)}

theorem commonIndentation_append (h : blanks.all isBlank = true) :
    commonIndentation (ls ++ blanks) = commonIndentation ls := by
  have hnone : blanks.filter (!isBlank ·) = [] := by simpa [List.filter_eq_nil_iff] using h
  rw [commonIndentation, List.filter_append, hnone, List.append_nil, commonIndentation]

theorem dropBlank_append (h : blanks.all isBlank = true) : dropBlank (blanks ++ ls) = dropBlank ls :=
  List.dropWhile_append_of_pos (List.all_eq_true.1 h)

theorem trimBlank_append (h : blanks.all isBlank = true) : trimBlank (ls ++ blanks) = trimBlank ls := by
  have hnil : dropBlank blanks = [] := by
    have hdrop : dropBlank (blanks ++ []) = dropBlank [] := dropBlank_append h
    rwa [List.append_nil] at hdrop
  have happend : dropBlank (ls ++ blanks) =
      if (dropBlank ls).isEmpty then dropBlank blanks else dropBlank ls ++ blanks := List.dropWhile_append
  rw [trimBlank, trimBlank, happend]
  split
  next hls => rw [List.isEmpty_iff.1 hls, hnil]
  next => rw [List.reverse_append, dropBlank_append (by rwa [List.all_reverse])]

theorem isBlank_drop {line : List Char} (h : isBlank line = true) (n : Nat) : isBlank (line.drop n) = true :=
  List.all_eq_true.2 fun _ hc => List.all_eq_true.1 h _ (List.mem_of_mem_drop hc)

theorem flush_append (h : blanks.all isBlank = true) : flush (ls ++ blanks) = flush ls := by
  rw [flush, commonIndentation_append h, List.map_append, trimBlank_append, flush]
  rw [List.all_map]
  exact List.all_eq_true.2 fun line hline => isBlank_drop (List.all_eq_true.1 h line hline) _

theorem SameButBlank.flush_eq {ls' : List (List Char)} (h : SameButBlank ls ls') : flush ls = flush ls' := by
  obtain ⟨line, common, blanks, blanks', rfl, rfl, hblanks, hblanks'⟩ := h
  rw [flush_append hblanks, flush_append hblanks']

/-- The first line of a block is where its quotes are, and blank. -/
theorem trimBlank_dedent : trimBlank (dedent ([] :: ls)) = flush ls := by
  have hdrop : ∀ more : List (List Char), dropBlank ([] :: more) = dropBlank more := fun _ => rfl
  rw [dedent, trimBlank, hdrop, flush, trimBlank]

end flush

/-- Between lines of blanks, a text stands for its normal form. -/
theorem value_block {indent : List Char} (hindent : ∀ c ∈ indent, c = ' ') (text : List Char) :
    value ('\n' :: text ++ '\n' :: indent) = normalForm text := by
  rw [value, List.cons_append, lines_break rfl (fun h => by cases h), trimBlank_dedent, normalForm,
    (lines_append hindent text).flush_eq]

/-- Of a single line the normal form drops the blanks that it begins with. -/
theorem normalForm_line {text : List Char} (hbreak : ∀ c ∈ text, isBreak c = false) (hblank : isBlank text = false) :
    normalForm text = text.dropWhile isBlankChar := by
  have hdrop : text.drop (indentation text) = text.dropWhile isBlankChar := by
    conv_lhs => arg 2; rw [← List.takeWhile_append_dropWhile (p := isBlankChar) (l := text)]
    exact List.drop_left
  have hrest : isBlank (text.dropWhile isBlankChar) = false := by
    rw [Bool.eq_false_iff] at hblank ⊢
    intro hall
    refine hblank (List.all_eq_true.2 fun c hc => ?_)
    rw [← List.takeWhile_append_dropWhile (p := isBlankChar) (l := text), List.mem_append] at hc
    exact hc.elim (List.all_eq_true.1 List.all_takeWhile c) (List.all_eq_true.1 hall c)
  have hcommon : commonIndentation [text] = indentation text := by simp [commonIndentation, hblank]
  rw [normalForm, lines_eq_singleton hbreak, flush, hcommon, List.map_singleton, hdrop]
  simp [trimBlank, dropBlank, hrest]

end BlockString

/-! ## Quoted strings -/

namespace QuotedString

open BlockString (isBreak isBreak_eq_false)

/-- No digit is a line break. -/
theorem isBreak_of_hexDigit {c : Char} (h : (hexDigit? c).isSome = true) : isBreak c = false := by
  refine isBreak_eq_false.2 ⟨?_, ?_⟩ <;> rintro rfl <;> exact absurd h (by decide)

theorem isBreak_of_hexValue {digits : List Char} {n : Nat} (h : hexValue? digits = some n) :
    ∀ c ∈ digits, isBreak c = false := by
  have hfold : ∀ (l : List Char) (k m : Nat), l.foldlM (fun n c => (hexDigit? c).map (n * 16 + ·)) k = some m →
      ∀ c ∈ l, (hexDigit? c).isSome = true := by
    intro l
    induction l with
    | nil => simp
    | cons c l ih =>
      intro k m hl
      rw [List.foldlM_cons] at hl
      obtain ⟨k', hc, hl⟩ := Option.bind_eq_some_iff.1 hl
      obtain ⟨digit, hdigit, -⟩ := Option.map_eq_some_iff.1 hc
      exact List.forall_mem_cons.2 ⟨hdigit ▸ rfl, ih k' m hl⟩
  unfold hexValue? at h
  split at h
  next => cases h
  next => exact fun c hc => isBreak_of_hexDigit (hfold digits 0 n h c hc)

theorem isBreak_of_fourDigits {cs : List Char} {n : Nat} (h : fourDigits? cs = some n) :
    ∀ c ∈ cs.take 4, isBreak c = false := by
  unfold fourDigits? at h
  split at h
  next => exact isBreak_of_hexValue h
  next => cases h

theorem isBreak_of_unicodeEscape {cs : List Char} {a : Char} {n : Nat} (h : unicodeEscape cs = (some a, n)) :
    ∀ c ∈ cs.take n, isBreak c = false := by
  by_cases hbrace : cs.head? = some '\x7b'
  · obtain ⟨rest, rfl⟩ := List.head?_eq_some_iff.1 hbrace
    obtain ⟨hvalue, hclose, rfl⟩ := unicodeEscape_braced.1 h
    obtain ⟨n, hn, -⟩ := Option.bind_eq_some_iff.1 hvalue
    have hdigits := isBreak_of_hexValue hn
    generalize hd : rest.takeWhile (hexDigit? · |>.isSome) = digits at hclose hdigits
    obtain ⟨after, hafter⟩ := List.head?_eq_some_iff.1 hclose
    have hrest : rest = digits ++ '\x7d' :: after := by
      rw [← hafter, ← hd]
      exact (List.prefix_iff_eq_append.1 (List.takeWhile_prefix _)).symm
    have htake : rest.take (digits.length + 1) = digits ++ ['\x7d'] := by
      rw [hrest, ← List.singleton_append, ← List.append_assoc]
      exact List.take_left' (by simp)
    rw [List.take_succ_cons, htake, List.forall_mem_cons, List.forall_mem_append]
    exact ⟨rfl, hdigits, by simp [isBreak]⟩
  · obtain ⟨v, hv, hcases⟩ := (unicodeEscape_plain hbrace).1 h
    have hfour := isBreak_of_fourDigits hv
    rcases hcases with ⟨-, -, rfl⟩ | ⟨-, rest, w, hrest, hw, -, -, rfl⟩
    · exact hfour
    · have htake : cs.take 10 = cs.take 4 ++ '\\' :: 'u' :: rest.take 4 := by
        rw [show 10 = 4 + 6 from rfl, List.take_add, hrest]
        rfl
      rw [htake, List.forall_mem_append, List.forall_mem_cons, List.forall_mem_cons]
      exact ⟨hfour, rfl, rfl, isBreak_of_fourDigits hw⟩

/-- An escape takes at least one character after its backslash, and no line break. -/
theorem escape_taken {cs : List Char} {a : Char} {k : Nat} (h : escape cs = (some a, k)) :
    1 ≤ k ∧ ∀ c ∈ cs.take k, isBreak c = false := by
  cases cs with
  | nil => cases h
  | cons c rest =>
    by_cases hu : c = 'u'
    · subst hu
      rw [escape_u, Prod.mk.injEq] at h
      obtain ⟨ha, rfl⟩ := h
      rw [List.take_succ_cons, List.forall_mem_cons]
      exact ⟨Nat.le_add_left 1 _, rfl, isBreak_of_unicodeEscape (Prod.ext ha rfl)⟩
    · obtain ⟨heq, hlength⟩ := escape_other hu rest
      rw [heq] at h
      obtain rfl : 1 = k := hlength.symm.trans (congrArg Prod.snd h)
      refine ⟨Nat.le_refl 1, fun c' hc' => ?_⟩
      obtain rfl : c' = c := by simpa using hc'
      refine isBreak_eq_false.2 ⟨?_, ?_⟩ <;> rintro rfl <;> cases h

/-- What an accepted `value` says of the text `w` that it is read from. -/
structure Taken (w value : List Char) : Prop where
  unbroken : ∀ c ∈ w, isBreak c = false
  length_le : value.length ≤ w.length
  /-- Where the value is as long as the text, no escape is in it. -/
  verbatim : value.length = w.length → '\\' ∉ w

theorem Taken.nil : Taken [] [] := ⟨by simp, Nat.le_refl 0, by simp⟩

theorem Taken.cons {w value : List Char} (h : Taken w value) {c : Char} (hc : isBreak c = false)
    (hbackslash : c ≠ '\\') : Taken (c :: w) (c :: value) where
  unbroken := List.forall_mem_cons.2 ⟨hc, h.unbroken⟩
  length_le := Nat.succ_le_succ h.length_le
  verbatim hlength hmem :=
    (List.mem_cons.1 hmem).elim (fun heq => hbackslash heq.symm) (h.verbatim (Nat.succ.inj hlength))

/-- An escape stands for one character and takes two or more. -/
theorem Taken.escaped {w value : List Char} (h : Taken w value) {taken : List Char} (hpos : 1 ≤ taken.length)
    (htaken : ∀ c ∈ taken, isBreak c = false) (a : Char) : Taken ('\\' :: (taken ++ w)) (a :: value) := by
  have hle := h.length_le
  refine ⟨List.forall_mem_cons.2 ⟨rfl, List.forall_mem_append.2 ⟨htaken, h.unbroken⟩⟩, ?_, fun hlength => ?_⟩
  · simp only [List.length_cons, List.length_append]
    omega
  · simp only [List.length_cons, List.length_append] at hlength
    omega

/-- A string ends at a quote, and its value, if it has one, is taken from the text before. -/
theorem content_taken {cs : List Char} {value? : Option (List Char)} {n : Nat} (h : content cs = some (value?, n)) :
    ∃ w, cs = w ++ '"' :: cs.drop n ∧ ∀ value ∈ value?, Taken w value := by
  induction cs using content.induct generalizing value? n with
  | case1 =>
    rw [content] at h
    cases h
  | case2 rest =>
    rw [content, if_pos rfl] at h
    cases h
    refine ⟨[], rfl, ?_⟩
    rintro _ ⟨⟩
    exact .nil
  | case3 c rest hc a? k hk ih =>
    simp only [dite_eq_ite] at hk
    rw [content, if_neg hc, hk] at h
    obtain ⟨⟨more?, m⟩, hmore, h⟩ := Option.map_eq_some_iff.1 h
    obtain ⟨rfl, rfl⟩ := Prod.mk.inj h
    obtain ⟨w, hw, hvalue⟩ := ih hmore
    have hdrop : (c :: rest).drop (k + 1 + m) = (rest.drop k).drop m := by
      rw [show k + 1 + m = k + m + 1 by omega, List.drop_succ_cons, List.drop_drop]
    refine ⟨c :: (rest.take k ++ w), ?_, fun value hread => ?_⟩
    · rw [hdrop, List.cons_append, List.append_assoc, ← hw, List.take_append_drop]
    · obtain ⟨a, rfl, htail⟩ := Option.bind_eq_some_iff.1 hread
      obtain ⟨more, rfl, hcons⟩ := Option.bind_eq_some_iff.1 htail
      cases hcons
      split at hk
      next hbackslash =>
        obtain ⟨hpos, htaken⟩ := escape_taken hk
        have hrest : 1 ≤ rest.length := List.length_pos_iff.2 fun hnil => by simp [hnil] at hw
        rw [hbackslash]
        exact (hvalue more rfl).escaped (by rw [List.length_take]; omega) htaken a
      next hbackslash =>
        obtain ⟨ha, rfl⟩ := Prod.mk.inj hk
        split at ha
        next => cases ha
        next hbreak =>
          cases ha
          exact (hvalue more rfl).cons (by simpa [isBreak] using hbreak) hbackslash

end QuotedString

/-! ## Descriptions -/

namespace Introspection

open Source Reader
open BlockString (isBreak isBreak_eq_false isBlankChar normalForm)

/-- What a description should be read as: itself if it has no line break in it, its normal form if it has one. -/
def intended (d : String) : String :=
  if d.toList.any isBreak = true then String.ofList (normalForm d.toList) else d

/-- The descriptions that are read as they should be: of those between triple quotes all but single lines that begin
with a blank, of the others those without a backslash and without a carriage return. -/
def Survives (d : String) : Prop :=
  if (d.contains '\n' || d.contains '"') = true then
    d.toList.any isBreak = true ∨ d.toList.head?.any isBlankChar = false
  else '\\' ∉ d.toList ∧ '\r' ∉ d.toList

section

variable {indent : String} {j : Json} {d : String}

theorem contains_of_written (hquoted : ¬ (d.contains '\n' || d.contains '"') = true) :
    '\n' ∉ d.toList ∧ '"' ∉ d.toList := by
  simpa [String.contains_char_eq] using hquoted

/-- Between triple quotes a description is read as its normal form. -/
theorem tokensOf_blockDescription (hindent : ∀ c ∈ indent.toList, c = ' ') (hd : nonEmpty? j "description" = some d)
    (hblock : (d.contains '\n' || d.contains '"') = true) :
    tokensOf (description indent j).toList = [.string (String.ofList (normalForm d.toList))] := by
  rw [(prints_blockDescription hindent hd hblock).whole, BlockString.value_block hindent]
  rfl

/-- The normal form of a line with a quote in it is the line, unless it begins with a blank. -/
theorem normalForm_eq_iff (hline : d.toList.any isBreak = false) (hquote : '"' ∈ d.toList) :
    normalForm d.toList = d.toList ↔ d.toList.head?.any isBlankChar = false := by
  have hbreak : ∀ c ∈ d.toList, isBreak c = false := by simpa using hline
  have hblank : BlockString.isBlank d.toList = false :=
    Bool.eq_false_iff.2 fun hall => absurd (List.all_eq_true.1 hall _ hquote) (by decide)
  rw [BlockString.normalForm_line hbreak hblank]
  cases htext : d.toList with
  | nil => simp
  | cons c text =>
    cases hc : isBlankChar c with
    | false => simp [hc]
    | true =>
      have hlength := (List.dropWhile_sublist (p := isBlankChar) (l := text)).length_le
      rw [List.dropWhile_cons_of_pos hc]
      simp only [List.head?_cons, Option.any_some, hc, Bool.true_eq_false, iff_false]
      intro heq
      have := congrArg List.length heq
      simp only [List.length_cons] at this
      omega

theorem intended_of_line (h : ∀ c ∈ d.toList, isBreak c = false) : intended d = d :=
  if_neg (by simpa using h)

/-- A text that is one string between quotes has no line break in it, and no backslash if the string is the text. -/
theorem verbatim_of_tokensOf {w : List Char} (hne : w ≠ []) (hquote : '"' ∉ w) {s : String}
    (h : tokensOf ('"' :: (w ++ ['"', '\n'])) = [.string s]) :
    (∀ c ∈ w, isBreak c = false) ∧ (s.toList = w → '\\' ∉ w) := by
  have hblock : (w ++ ['"', '\n']).take 2 ≠ ['"', '"'] := by
    obtain ⟨c, text, rfl⟩ := List.exists_cons_of_ne_nil hne
    intro htake
    obtain ⟨rfl, -⟩ := List.cons.inj htake
    exact hquote List.mem_cons_self
  rw [tokensOf_cons rfl, scanToken_quote, if_neg hblock] at h
  split at h
  next value? n hcontent =>
    -- the only quote that can close the string is the one after the text
    obtain ⟨w', hw', hvalue⟩ := QuotedString.content_taken hcontent
    obtain ⟨rfl, -, hrest⟩ := (List.append_cons_inj_of_notMem hquote (by simp)).1 hw'
    rw [← hrest, tokensOf_ignored rfl, tokensOf_nil, List.append_nil] at h
    cases value? with
    | none => cases h
    | some value =>
      cases h
      refine ⟨(hvalue _ rfl).unbroken, fun hs => (hvalue _ rfl).verbatim ?_⟩
      rw [← hs, String.toList_ofList]
  next =>
    rw [List.drop_length, tokensOf_nil] at h
    cases h

/-- Between single quotes a description is read as it should be if no escape and no line break is in it, and not
otherwise. -/
theorem tokensOf_quotedDescription (hindent : ∀ c ∈ indent.toList, c = ' ') (hd : nonEmpty? j "description" = some d)
    (hquoted : ¬ (d.contains '\n' || d.contains '"') = true) :
    tokensOf (description indent j).toList = [.string (intended d)] ↔ '\\' ∉ d.toList ∧ '\r' ∉ d.toList := by
  obtain ⟨hfeed, hquote⟩ := contains_of_written hquoted
  constructor
  · intro h
    have hne : d.toList ≠ [] := by
      intro hnil
      obtain rfl := String.toList_eq_nil_iff.1 hnil
      simp [nonEmpty?, Option.filter_eq_some_iff] at hd
    have htext : (description indent j).toList = indent.toList ++ '"' :: (d.toList ++ ['"', '\n']) := by
      rw [description_quoted hd hquoted]
      simp
    rw [htext, tokensOf_ignored_append fun c hc => by rw [hindent c hc]; rfl] at h
    obtain ⟨hbreaks, hverbatim⟩ := verbatim_of_tokensOf hne hquote h
    exact ⟨hverbatim (by rw [intended_of_line hbreaks]), fun hc => absurd (hbreaks _ hc) (by decide)⟩
  · rintro ⟨hbackslash, hreturn⟩
    have hclosed : QuotedString.Closes d.toList (some d.toList) := by
      refine QuotedString.closes_plain fun c hc => ⟨?_, ?_, ?_, ?_⟩ <;> rintro rfl <;> contradiction
    have hline : ∀ c ∈ d.toList, isBreak c = false :=
      fun c hc => isBreak_eq_false.2 ⟨fun he => hfeed (he ▸ hc), fun he => hreturn (he ▸ hc)⟩
    rw [(prints_quotedDescription hindent hd hquoted hclosed).whole, Option.map_some, String.ofList_toList,
      intended_of_line hline]
    rfl

/-- The descriptions that survive are those whose text is one string, of the value that it should have. -/
theorem tokensOf_description_iff (hindent : ∀ c ∈ indent.toList, c = ' ') (hd : nonEmpty? j "description" = some d) :
    tokensOf (description indent j).toList = [.string (intended d)] ↔ Survives d := by
  unfold Survives
  split
  next hblock =>
    rw [tokensOf_blockDescription hindent hd hblock]
    cases hline : d.toList.any isBreak with
    | true => simp [intended, hline]
    | false =>
      have hfeed : '\n' ∉ d.toList := fun hc => absurd (List.any_eq_false.1 hline _ hc) (by decide)
      have hquote : '"' ∈ d.toList := by simpa [String.contains_char_eq, hfeed] using hblock
      rw [← normalForm_eq_iff hline hquote]
      simp [intended, hline, String.ext_iff]
  next hquoted => exact tokensOf_quotedDescription hindent hd hquoted

end

/-- **Descriptions survive schema text**, if every description ends where its text does: each is read from its own text,
which is one string of the intended value exactly where `Survives` holds. An empty value counts as no description. -/
theorem descriptions_survive {schema : Json} (h : SchemaFits Closed (Literal nestingLimit) schema) :
    (Schema.parse (toSdl schema)).types =
      Schema.builtin.types ++ (writtenTypes schema).filterMap (typeOf? readDescription) ∧
    ∀ indent : String, (∀ c ∈ indent.toList, c = ' ') → ∀ j, ∀ d ∈ nonEmpty? j "description",
      (tokensOf (description indent j).toList = [.string (intended d)] ↔ Survives d) ∧
      (Survives d → readDescription indent j = (some (intended d)).filter (· ≠ "")) := by
  refine ⟨by rw [parse_toSdl_eq describes_closed h], fun indent hindent j d hd => ?_⟩
  have hiff := tokensOf_description_iff hindent hd
  refine ⟨hiff, fun hsurvives => ?_⟩
  rw [readDescription, hiff.2 hsurvives]

def roleValue : Json := .object [("name", .string "ADMIN"), ("description", .string "May \"write\".")]

def roleEnum : Json :=
  .object [("kind", .string "ENUM"), ("name", .string "Role"), ("description", .string "  Who may\n    do what.\n"),
    ("enumValues", .array [roleValue])]

/-- An enum with a description of two lines, and a value with quotes in its description. -/
def roles : Json := .object [("types", .array [roleEnum])]

theorem roles_fit : SchemaFits Closed (Literal nestingLimit) roles := by
  have henum : DefinitionFits Closed (Literal nestingLimit) roleEnum := by
    refine ⟨by decide, fun d hd => ?_, fun _ v hv => ?_, fun h => absurd h (by decide), fun h => absurd h (by decide),
      fun h => absurd h (by decide), fun h => absurd h (by decide)⟩
    · obtain rfl : d = "  Who may\n    do what.\n" := (Option.mem_some.1 hd).symm
      exact .inl (by simp [String.contains_char_eq])
    · obtain rfl := List.mem_singleton.1 (show v ∈ [roleValue] from hv)
      refine ⟨by decide, fun d hd => ?_⟩
      obtain rfl : d = "May \"write\"." := (Option.mem_some.1 hd).symm
      exact .inl (by simp [String.contains_char_eq])
  refine ⟨fun t ht _ => ?_, ?_, List.pairwise_singleton _ _, fun t ht hname => ?_⟩
  · obtain rfl := List.mem_singleton.1 (show t ∈ [roleEnum] from ht)
    exact henum
  · rintro (_ | _ | _) n hn <;> cases hn
  · obtain rfl := List.mem_singleton.1 (show t ∈ [roleEnum] from ht)
    exact absurd hname (by decide)

theorem roles_survive : SchemaFits Closed (Literal nestingLimit) roles ∧
    (Schema.parse (toSdl roles)).types = Schema.builtin.types ++
      [.enumeration ⟨"Role", some "Who may\n  do what.", [⟨"ADMIN", some "May \"write\"."⟩]⟩] := by
  refine ⟨roles_fit, ?_⟩
  obtain ⟨htypes, hall⟩ := descriptions_survive roles_fit
  have hwritten : writtenTypes roles = [roleEnum] := List.mergeSort_singleton _
  have henum := (hall "" (by simp) roleEnum _ rfl).2 (by simp [Survives, String.contains_char_eq, isBreak])
  have hvalue := (hall margin margin_blank roleValue _ rfl).2
    (by simp [Survives, String.contains_char_eq, BlockString.isBlankChar])
  have hread : typeOf? readDescription roleEnum = some (.enumeration
      ⟨"Role", readDescription "" roleEnum, [⟨"ADMIN", readDescription margin roleValue⟩]⟩) := rfl
  rw [htypes, hwritten, List.filterMap_cons, hread, henum, hvalue]
  decide

/-- A scalar with a backslash in its description. -/
def pathScalar : Json :=
  .object [("kind", .string "SCALAR"), ("name", .string "Path"), ("description", .string "C:\\new")]

def paths : Json := .object [("types", .array [pathScalar])]

theorem toSdl_paths : toSdl paths = "\"C:\\new\"\nscalar Path\n\n" := by
  have hwritten : writtenTypes paths = [pathScalar] := List.mergeSort_singleton _
  have hdescription : description "" pathScalar = "" ++ "\"" ++ "C:\\new" ++ "\"\n" :=
    description_quoted rfl (by simp [String.contains_char_eq])
  have htype : typeDefinition pathScalar = description "" pathScalar ++ "scalar " ++ "Path" ++ "\n\n" := rfl
  rw [toSdl, hwritten, List.map_singleton, htype, hdescription]
  decide +kernel

/-- The backslash is read as an escape. -/
theorem path_misread : nonEmpty? pathScalar "description" = some "C:\\new" ∧ intended "C:\\new" = "C:\\new" ∧
    (Schema.parse (toSdl paths)).find? "Path" = some (.scalar ⟨"Path", some "C:\new"⟩) := by
  refine ⟨rfl, by decide, ?_⟩
  rw [toSdl_paths]
  decide +kernel

end Introspection

end TypedQuery
