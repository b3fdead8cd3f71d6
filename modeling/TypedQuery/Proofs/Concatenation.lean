/-
Texts one after the other. A text of operations and fragments is their own
texts in a row with ignored text around them (`Rows`), and so is any other
text of that form. After a line end every comment is closed, so the rows of
two texts with a line end between them are rows again (`Rows.append`): files
that are read as one text give the definitions of all files in order
(`files_parse_together`).
-/
import TypedQuery.Proofs.ProgramRuns
import TypedQuery.Proofs.SourceText

namespace TypedQuery

open Source Reader

namespace Source

/-! ## Ignored text -/

section ignored

variable {inComment : Bool} {blank text after rest : List Char} {c : Char} {x : Lexeme} {xs : List Lexeme}

/-- Whether ignored text ends in a comment; nothing if some of the text is not ignored. -/
def ignoredEnd? (inComment : Bool) (text : List Char) : Option Bool := text.foldlM afterIgnored? inComment

theorem ignoredEnd?_cons : ignoredEnd? inComment (c :: text) = (afterIgnored? inComment c).bind (ignoredEnd? · text) :=
  List.foldlM_cons

theorem ignoredEnd?_append :
    ignoredEnd? inComment (blank ++ text) = (ignoredEnd? inComment blank).bind (ignoredEnd? · text) :=
  List.foldlM_append

/-- Ignored text ends at a character that is not ignored, outside of comments. -/
theorem ignoredLength_eq_length : ignoredLength inComment (blank ++ c :: after) = blank.length ↔
    ignoredEnd? inComment blank = some false ∧ afterIgnored? false c = none := by
  induction blank generalizing inComment with
  | nil =>
    rw [List.nil_append, ignoredLength_cons]
    cases inComment with
    | true => simp [afterIgnored?, ignoredEnd?]
    | false => cases hnext : afterIgnored? false c <;> simp [ignoredEnd?]
  | cons c' blank ih =>
    rw [List.cons_append, ignoredLength_cons, ignoredEnd?_cons]
    cases hnext : afterIgnored? inComment c' with
    | none => simp
    | some b => simp [← ih, Nat.add_comm 1]

theorem blank_iff : Blank blank c ↔ ignoredEnd? false blank = some false ∧ afterIgnored? false c = none :=
  ⟨fun h => ignoredLength_eq_length.1 (h []), fun h _ => ignoredLength_eq_length.2 h⟩

theorem drop_ignoredLength : text.drop (ignoredLength inComment text) = [] ↔ (ignoredEnd? inComment text).isSome := by
  induction text generalizing inComment with
  | nil => simp [ignoredEnd?]
  | cons c text ih =>
    rw [ignoredLength_cons, ignoredEnd?_cons]
    cases hnext : afterIgnored? inComment c with
    | none => simp
    | some b => simp [← ih, Nat.add_comm 1]

theorem scan_eq_nil : scan text = [] ↔ (ignoredEnd? false text).isSome := by
  rw [← drop_ignoredLength]
  constructor
  · intro h
    rw [scan] at h
    dsimp only at h
    split at h
    next hnil => exact hnil
    next => cases h
  · exact scan_nil

/-- A line end closes a comment. -/
theorem ignoredEnd?_lineEnd (h : (ignoredEnd? inComment blank).isSome) :
    ignoredEnd? inComment (blank ++ '\n' :: text) = ignoredEnd? false text := by
  obtain ⟨b, hb⟩ := Option.isSome_iff_exists.1 h
  rw [ignoredEnd?_append, hb, Option.bind_some, ignoredEnd?_cons]
  cases b <;> rfl

/-- What is ignored before lexemes may be any other ignored text that leaves no comment open. -/
theorem Lexes.behind (h : Lexes rest (x :: xs)) (hblank : ignoredEnd? false blank = some false) :
    Lexes rest ({ x with blank := blank } :: xs) := by
  obtain ⟨⟨c, w, m, htext, hold, hscan⟩, tail⟩ := lexes_cons.1 h
  exact .cons ⟨c, w, m, htext, blank_iff.2 ⟨hblank, (blank_iff.1 hold).2⟩, hscan⟩ tail

end ignored

end Source

/-! ## Rows of definitions -/

/-- An operation or a fragment. -/
def Definition.IsExecutable (v : Definition) : Prop := (sourceOf? v).isSome

/-- `text` is the texts of the definitions `vs` in a row, with ignored text before, between and after them. -/
inductive Rows : List Char → List Definition → Prop
  | nil {rest : List Char} (h : (ignoredEnd? false rest).isSome) : Rows rest []
  | cons {blank text : List Char} {v : Definition} {vs : List Definition} {xs : List Lexeme}
      (hblank : ignoredEnd? false blank = some false) (hv : Quoted v xs) (h : Rows text vs) :
      Rows (blank ++ Lexeme.source xs ++ text) (v :: vs)

section rows

variable {text more : List Char} {vs ws : List Definition}

theorem Rows.behind {blank : List Char} (h : Rows text vs) (hblank : (ignoredEnd? false blank).isSome) :
    Rows (blank ++ '\n' :: text) vs := by
  cases h with
  | nil h => exact .nil ((congrArg Option.isSome (ignoredEnd?_lineEnd hblank)).trans h)
  | @cons blank' text v vs xs hblank' hv h =>
    rw [List.append_assoc, ← List.cons_append, ← List.append_assoc, ← List.append_assoc]
    exact .cons ((ignoredEnd?_lineEnd hblank).trans hblank') hv h

/-- Two texts with a line end between them. -/
theorem Rows.append (h : Rows text vs) (hmore : Rows more ws) : Rows (text ++ '\n' :: more) (vs ++ ws) := by
  induction h with
  | nil h => exact hmore.behind h
  | @cons blank text v vs xs hblank hv _ ih =>
    rw [List.append_assoc]
    exact .cons hblank hv ih

/-- The lexemes of a row are read as its definitions. -/
theorem Rows.lexes (h : Rows text vs) :
    ∃ ls rest, text = written ls ++ rest ∧ Lexes rest ls ∧ scan rest = [] ∧ definitions ls = ⟨vs, true, []⟩ := by
  induction h with
  | @nil rest h => exact ⟨[], rest, rfl, .nil, scan_eq_nil.2 h, by rw [definitions, many]⟩
  | @cons blank text v vs xs hblank hv _ ih =>
    obtain ⟨ls, rest, rfl, hlexes, hrest, hread⟩ := ih
    obtain ⟨y, ys, rfl⟩ : ∃ y ys, xs = y :: ys := by
      obtain ⟨ys, x, rfl, -⟩ := hv.excerpt.closed
      exact List.exists_cons_of_ne_nil (by simp)
    have hfirst : definition ({ y with blank := blank } :: ys ++ ls) = ⟨v, true, ls⟩ := hv.excerpt.reads rfl rfl
    exact ⟨{ y with blank := blank } :: ys ++ ls, rest, by simp [source_cons],
      lexes_append.2 ⟨(hv.lexes _).behind hblank, hlexes⟩, hrest, many_more rfl hfirst hread⟩

/-- A clean reading of executable definitions begins with an excerpt. -/
theorem definitions_cons {ls : List Lexeme} (hne : ls ≠ []) (hclean : (definitions ls).clean = true)
    (hall : ∀ v ∈ (definitions ls).value, v.IsExecutable) :
    ∃ v xs after, ls = xs ++ after ∧ Excerpt definition v xs ∧
      definitions ls = ⟨v :: (definitions after).value, (definitions after).clean, (definitions after).rest⟩ := by
  obtain ⟨t, ts, rfl⟩ := List.exists_cons_of_ne_nil hne
  have hfirst : (definition (t :: ts)).clean = true ∧ (definition (t :: ts)).value ∈ (definitions (t :: ts)).value := by
    rw [definitions, many, if_pos rfl] at hclean ⊢
    dsimp only at hclean ⊢
    split at hclean
    next hlt =>
      rw [dif_pos hlt]
      exact ⟨(Bool.and_eq_true_iff.1 hclean).1, List.mem_cons_self⟩
    next hlt =>
      rw [dif_neg hlt]
      exact ⟨hclean, List.mem_cons_self⟩
  obtain ⟨v, xs, after, hsplit, hexcerpt⟩ := quotes_definition _ hfirst.1 (hall _ hfirst.2)
  refine ⟨v, xs, after, hsplit, hexcerpt, ?_⟩
  obtain ⟨ys, z, rfl, -⟩ := hexcerpt.closed
  obtain ⟨x, xs, hxs⟩ : ∃ x xs, ys ++ [z] = x :: xs := List.exists_cons_of_ne_nil (by simp)
  have hread : definition (ys ++ [z] ++ after) = ⟨v, true, after⟩ := hexcerpt.reads rfl rfl
  rw [hxs] at hsplit hread
  rw [hsplit]
  exact many_more rfl hread rfl

/-- A clean reading of executable definitions is a row of them. -/
theorem rows_of_lexes {ls : List Lexeme} {rest : List Char} (hlexes : Lexes rest ls) (hrest : scan rest = [])
    (hclean : (definitions ls).clean = true) (hall : ∀ v ∈ (definitions ls).value, v.IsExecutable) :
    Rows (written ls ++ rest) (definitions ls).value := by
  induction hn : ls.length using Nat.strongRecOn generalizing ls with
  | ind n ih =>
    by_cases hne : ls = []
    · subst hne
      rw [definitions, many]
      exact .nil (scan_eq_nil.1 hrest)
    obtain ⟨v, xs, after, rfl, hexcerpt, hread⟩ := definitions_cons hne hclean hall
    rw [hread] at hclean hall ⊢
    obtain ⟨ys, z, rfl, hz⟩ := hexcerpt.closed
    obtain ⟨hown, hafter⟩ := lexes_append.1 hlexes
    have hquoted : Quoted v (ys ++ [z]) := ⟨hexcerpt, fun _ => hown.closed hz⟩
    have hshorter : after.length < n := by
      rw [← hn, List.length_append, List.length_append, List.length_singleton]
      omega
    have hmore := ih _ hshorter hafter hclean (fun w hw => hall w (List.mem_cons_of_mem _ hw)) rfl
    obtain ⟨x, xs, hxs⟩ : ∃ x xs, ys ++ [z] = x :: xs := List.exists_cons_of_ne_nil (by simp)
    rw [hxs] at hquoted hown ⊢
    have hblank : ignoredEnd? false x.blank = some false := by
      obtain ⟨c, w, m, -, hblank, -⟩ := (lexes_cons.1 hown).1
      exact (blank_iff.1 hblank).1
    have htext : written (x :: xs ++ after) ++ rest =
        x.blank ++ Lexeme.source (x :: xs) ++ (written after ++ rest) := by
      simp [source_cons]
    rw [htext]
    exact .cons hblank hquoted hmore

end rows

namespace Document

/-- The definitions of a text, in order. -/
def definitionsIn (text : String) : List Definition := (definitions (lexemes text.toList)).value

/-- The text defines operations and fragments only. -/
def OnlyExecutable (text : String) : Prop := ∀ v ∈ definitionsIn text, v.IsExecutable

/-- What a text of operations and fragments defines is a row, and makes its document. -/
theorem rows_of_parse {text : String} {d : Document} (h : parse text = .ok d) (hall : OnlyExecutable text) :
    Rows text.toList (definitionsIn text) ∧ definitionsIn text ≠ [] ∧ ofDefinitions (definitionsIn text) = .ok d := by
  rw [parse] at h
  split at h
  next => cases h
  next => cases h
  next ls hne hls =>
    have hscan := lexemes?_eq_some.1 hls
    have hlexemes : lexemes text.toList = ls := by
      rw [lexemes, hscan, List.filterMap_map]
      exact List.filterMap_some
    unfold OnlyExecutable definitionsIn at hall
    rw [hlexemes] at hall
    rw [definitionsIn, hlexemes]
    dsimp only at h
    split at h
    next hclean =>
      obtain ⟨rest, htext, hlexes, hrest⟩ := lexes_of_scan hscan
      refine ⟨htext ▸ rows_of_lexes hlexes hrest hclean hall, fun hnone => ?_, h⟩
      obtain ⟨v, xs, after, -, -, hread⟩ := definitions_cons (by rintro rfl; exact hne rfl) hclean hall
      rw [hread] at hnone
      cases hnone
    next => cases h

theorem parse_of_rows {text : String} {vs : List Definition} (h : Rows text.toList vs) (hne : vs ≠ []) :
    parse text = ofDefinitions vs := by
  obtain ⟨ls, rest, htext, hlexes, hrest, hread⟩ := h.lexes
  have hscan : lexemes? text.toList = some ls := by
    rw [lexemes?_eq_some, htext, hlexes.scan_eq, hrest, List.append_nil]
  cases ls with
  | nil =>
    rw [definitions, many] at hread
    exact absurd (congrArg Reading.value hread).symm hne
  | cons x xs =>
    rw [parse, hscan]
    dsimp only
    rw [hread]
    rfl

/-! ## Documents one after the other -/

/-- The definitions of both documents. -/
def append (d e : Document) : Document := ⟨d.operations ++ e.operations, d.fragments ++ e.fragments⟩

def fragmentNames (d : Document) : List String := d.fragments.map (·.name)

/-- Both documents define a fragment of that name. -/
def Shares (d e : Document) (name : String) : Prop := name ∈ d.fragmentNames ∧ name ∈ e.fragmentNames

/-- Two of the documents define a fragment of that name. -/
def DefinedTwice (ds : List Document) (name : String) : Prop := ∃ d e, List.Sublist [d, e] ds ∧ d.Shares e name

section append

variable {d e e' : Document} {ds : List Document} {name : String} {vs : List Definition}

theorem fragment?_isSome : (d.fragment? name).isSome ↔ name ∈ d.fragmentNames := by
  simp [fragment?, fragmentNames, List.find?_isSome]

@[simp] theorem fragmentNames_append : (d.append e).fragmentNames = d.fragmentNames ++ e.fragmentNames :=
  List.map_append

/-- Adding definitions keeps fragments. -/
theorem fragmentNames_of_adds (h : vs.foldlM add e = .ok e') : e.fragmentNames ⊆ e'.fragmentNames := by
  induction vs generalizing e with
  | nil =>
    cases h
    exact List.Subset.refl _
  | cons v vs ih =>
    obtain ⟨e₁, hadd, h⟩ := bind_eq_ok.1 h
    refine List.Subset.trans ?_ (ih h)
    cases v with
    | fragment f =>
      rw [add] at hadd
      split at hadd
      next => cases hadd
      next =>
        cases hadd
        simp [fragmentNames]
    | operation | type | roots | other =>
      cases hadd
      exact List.Subset.refl _

/-- Behind another document, definitions add what they add to the empty one, unless it defines one of their
fragments. -/
theorem adds_append (h : vs.foldlM add e = .ok e') (hnew : ∀ name, ¬ d.Shares e name) :
    ((∀ name, ¬ d.Shares e' name) ∧ vs.foldlM add (d.append e) = .ok (d.append e')) ∨
      ∃ name, d.Shares e' name ∧ vs.foldlM add (d.append e) = .error (.duplicateFragment name) := by
  induction vs generalizing e with
  | nil =>
    cases h
    exact .inl ⟨hnew, rfl⟩
  | cons v vs ih =>
    obtain ⟨e₁, hadd, h⟩ := bind_eq_ok.1 h
    rw [List.foldlM_cons]
    cases v with
    | operation op =>
      cases hadd
      have hstep : (d.append e).add (.operation op) = .ok (d.append { e with operations := e.operations ++ [op] }) := by
        simp [add, append]
      rw [hstep]
      exact ih h hnew
    | fragment f =>
      rw [add] at hadd
      split at hadd
      next => cases hadd
      next hfree =>
        cases hadd
        have hnames : ({ e with fragments := e.fragments ++ [f] } : Document).fragmentNames =
            e.fragmentNames ++ [f.name] := List.map_append
        by_cases hold : f.name ∈ d.fragmentNames
        · have hstep : (d.append e).add (.fragment f) = .error (.duplicateFragment f.name) :=
            if_pos (fragment?_isSome.2 (fragmentNames_append ▸ List.mem_append_left _ hold))
          rw [hstep]
          exact .inr ⟨f.name, ⟨hold, fragmentNames_of_adds h (by simp [hnames])⟩, rfl⟩
        · have hstep : (d.append e).add (.fragment f) =
              .ok (d.append { e with fragments := e.fragments ++ [f] }) := by
            rw [fragment?_isSome] at hfree
            rw [add, if_neg (by simp [fragment?_isSome, hold, hfree])]
            simp [append]
          rw [hstep]
          refine ih h fun name hshared => ?_
          obtain ⟨hd, he⟩ := hshared
          rw [hnames, List.mem_append, List.mem_singleton] at he
          rcases he with he | rfl
          · exact hnew name ⟨hd, he⟩
          · exact hold hd
    | type | roots | other =>
      cases hadd
      exact ih h hnew

theorem not_definedTwice_nil : ¬ DefinedTwice [] name := by
  simp [DefinedTwice]

theorem definedTwice_cons : DefinedTwice (d :: ds) name ↔ DefinedTwice ds name ∨ ∃ e ∈ ds, d.Shares e name := by
  simp only [DefinedTwice, List.cons_sublist_cons', List.singleton_sublist]
  grind

/-- Documents with nothing in common are one document in front of the others. -/
theorem definedTwice_append (h : ∀ name, ¬ d.Shares e name) :
    DefinedTwice (d.append e :: ds) name ↔ DefinedTwice (d :: e :: ds) name := by
  have hshares : ∀ {b : Document}, (d.append e).Shares b name ↔ d.Shares b name ∨ e.Shares b name := by
    intro b
    simp only [Shares, fragmentNames_append, List.mem_append]
    tauto
  have hnot := h name
  simp only [definedTwice_cons, hshares, List.mem_cons]
  grind

/-- The definitions of documents in a row make all of them together, or else the name of a fragment that two of them
define is refused. -/
theorem adds_flatten {vss : List (List Definition)} (h : List.Forall₂ (fun vs e => ofDefinitions vs = .ok e) vss ds) :
    ((∀ name, ¬ DefinedTwice (d :: ds) name) ∧ vss.flatten.foldlM add d = .ok (ds.foldl append d)) ∨
      ∃ name, DefinedTwice (d :: ds) name ∧ vss.flatten.foldlM add d = .error (.duplicateFragment name) := by
  induction h generalizing d with
  | nil =>
    refine .inl ⟨fun name => ?_, rfl⟩
    simp [definedTwice_cons, not_definedTwice_nil]
  | @cons vs e vss ds hvs _ ih =>
    have hempty : d.append ⟨[], []⟩ = d := by simp [append]
    rw [List.flatten_cons, List.foldlM_append]
    rcases adds_append (d := d) hvs (by simp [Shares, fragmentNames]) with ⟨hdisjoint, hadds⟩ | ⟨name, hshares, herror⟩
    · rw [hempty] at hadds
      rw [hadds]
      simp only [← definedTwice_append hdisjoint]
      exact ih (d := d.append e)
    · rw [hempty] at herror
      rw [herror]
      exact .inr ⟨name, definedTwice_cons.2 (.inr ⟨e, List.mem_cons_self, hshares⟩), rfl⟩

/-- Documents in a row. -/
theorem foldl_append : ds.foldl append d =
    ⟨d.operations ++ ds.flatMap (·.operations), d.fragments ++ ds.flatMap (·.fragments)⟩ := by
  induction ds generalizing d with
  | nil => simp
  | cons e ds ih => simp [ih, append]

/-- The definitions of documents in a row make one document, unless two of the documents define a fragment of one
name. -/
theorem ofDefinitions_flatten {vss : List (List Definition)}
    (h : List.Forall₂ (fun vs e => ofDefinitions vs = .ok e) vss ds) :
    ((∀ name, ¬ DefinedTwice ds name) ∧
        ofDefinitions vss.flatten = .ok ⟨ds.flatMap (·.operations), ds.flatMap (·.fragments)⟩) ∨
      ∃ name, DefinedTwice ds name ∧ ofDefinitions vss.flatten = .error (.duplicateFragment name) := by
  have hempty : ∀ name, DefinedTwice (⟨[], []⟩ :: ds) name ↔ DefinedTwice ds name := by
    simp [definedTwice_cons, Shares, fragmentNames]
  have hflatten := adds_flatten (d := ⟨[], []⟩) h
  simp only [hempty, foldl_append, List.nil_append] at hflatten
  exact hflatten

end append

end Document

/-! ## Files -/

namespace Program

/-- Texts in a row, each with a line end behind it. -/
def joined (texts : List String) : String := texts.foldr (fun text more => text ++ "\n" ++ more) ""

theorem rows_joined {texts : List String} {vss : List (List Definition)}
    (h : List.Forall₂ (fun text vs => Rows text.toList vs) texts vss) : Rows (joined texts).toList vss.flatten := by
  induction h with
  | nil => exact .nil rfl
  | @cons text vs texts vss hrow _ ih =>
    have htext : (joined (text :: texts)).toList = text.toList ++ '\n' :: (joined texts).toList := by
      simp [joined]
    rw [htext]
    exact hrow.append ih

/-- Texts that parse, and define operations and fragments only, are rows that make their documents. -/
theorem rows_of_parses {texts : List String} {docs : List Document}
    (hparse : List.Forall₂ (fun text d => Document.parse text = .ok d) texts docs)
    (hall : ∀ text ∈ texts, Document.OnlyExecutable text) :
    ∃ vss, List.Forall₂ (fun text vs => Rows text.toList vs ∧ vs ≠ []) texts vss ∧
      List.Forall₂ (fun vs d => Document.ofDefinitions vs = .ok d) vss docs := by
  induction hparse with
  | nil => exact ⟨[], .nil, .nil⟩
  | @cons text d texts docs hd _ ih =>
    obtain ⟨vss, hrows, hdocs⟩ := ih fun text htext => hall text (List.mem_cons_of_mem _ htext)
    obtain ⟨hrow, hsome, hdoc⟩ := Document.rows_of_parse hd (hall text List.mem_cons_self)
    exact ⟨_ :: vss, .cons ⟨hrow, hsome⟩ hrows, .cons hdoc hdocs⟩

variable {σ : Type} {env : Environment (StateM σ)} {w : σ} {paths texts : List String} {docs : List Document}

/-- The text of files that can be read. -/
theorem outcome_concatenate (h : List.Forall₂ (fun path text => (env.read path).run w = (.ok text, w)) paths texts) :
    outcome (concatenate env paths) w = (.ok (joined texts), w) := by
  induction h with
  | nil => rfl
  | @cons path text paths texts hread _ ih =>
    have hfile : outcome (readFile env path) w = (.ok text, w) := by
      rw [readFile, outcome_attempt, hread]
      rfl
    rw [concatenate, outcome_bind, hfile]
    dsimp only
    rw [outcome_bind, ih]
    rfl

open Document in
/-- **Queries may be split over files.** The text of files that each parse, and define operations and fragments only,
parses to the operations of all files and the fragments of all files, in their order, unless two of the files define
a fragment of one name; then such a name is refused. -/
theorem files_parse_together (hne : paths ≠ [])
    (hread : List.Forall₂ (fun path text => (env.read path).run w = (.ok text, w)) paths texts)
    (hparse : List.Forall₂ (fun text d => Document.parse text = .ok d) texts docs)
    (hall : ∀ text ∈ texts, OnlyExecutable text) :
    ∃ whole, outcome (concatenate env paths) w = (.ok whole, w) ∧
      ((∀ name, ¬ DefinedTwice docs name) →
        Document.parse whole = .ok ⟨docs.flatMap (·.operations), docs.flatMap (·.fragments)⟩) ∧
      ((∃ name, DefinedTwice docs name) →
        ∃ name, DefinedTwice docs name ∧ Document.parse whole = .error (.duplicateFragment name)) := by
  obtain ⟨vss, hrows, hdocs⟩ := rows_of_parses hparse hall
  have hsome : vss.flatten ≠ [] := by
    cases hread with
    | nil => exact absurd rfl hne
    | cons _ _ =>
      obtain _ | ⟨⟨-, hvs⟩, -⟩ := hrows
      simp [hvs]
  refine ⟨joined texts, outcome_concatenate hread, ?_⟩
  rw [parse_of_rows (rows_joined (hrows.imp fun _ _ h => h.1)) hsome]
  rcases ofDefinitions_flatten hdocs with ⟨hnone, hok⟩ | ⟨name, htwice, herror⟩
  · exact ⟨fun _ => hok, fun ⟨name, htwice⟩ => absurd htwice (hnone name)⟩
  · exact ⟨fun hnone => absurd htwice (hnone name), fun _ => ⟨name, htwice, herror⟩⟩

open Document in
theorem parses_of_check (text : String) (operations : List (Option String)) (fragments : List String)
    (h : (match parse text with
      | .ok d => d.operations.map (·.name?) == operations && d.fragmentNames == fragments
      | .error _ => false) = true) :
    ∃ d, parse text = .ok d ∧ d.operations.map (·.name?) = operations ∧ d.fragmentNames = fragments := by
  cases hparse : parse text with
  | error e =>
    rw [hparse] at h
    cases h
  | ok d =>
    rw [hparse, Bool.and_eq_true, beq_iff_eq, beq_iff_eq] at h
    exact ⟨d, rfl, h⟩

/-- An operation in one file, with a comment at its end that no line end closes. -/
def heroesQuery : String := "query Heroes \x7b heroes \x7b ...Hero \x7d \x7d # all"

/-- A fragment in another file, with a comma at its end. -/
def heroFragment : String := "fragment Hero on Person \x7b name \x7d,"

def heroFiles : FileTree := .ofFiles [("q.graphql", heroesQuery), ("f.graphql", heroFragment)]

open Document in
theorem heroes_parse_together : ∃ d e whole, parse heroesQuery = .ok d ∧ parse heroFragment = .ok e ∧
    d.operations.map (·.name?) = [some "Heroes"] ∧ e.fragmentNames = ["Hero"] ∧
    outcome (concatenate (FileTree.environment fun _ => none) ["q.graphql", "f.graphql"]) (heroFiles, []) =
      (.ok whole, heroFiles, []) ∧ parse whole = .ok ⟨d.operations ++ e.operations, d.fragments ++ e.fragments⟩ := by
  obtain ⟨d, hd, hheroes, hnone⟩ := parses_of_check heroesQuery [some "Heroes"] [] (by decide +kernel)
  obtain ⟨e, he, -, hhero⟩ := parses_of_check heroFragment [] ["Hero"] (by decide +kernel)
  have hreads : ∀ path text, heroFiles.read path = .ok text →
      ((FileTree.environment fun _ => none).read path).run (heroFiles, []) = (.ok text, heroFiles, []) :=
    fun path text h => Prod.ext h rfl
  have hquery := hreads "q.graphql" heroesQuery (by decide +kernel)
  have hfragment := hreads "f.graphql" heroFragment (by decide +kernel)
  have hall : ∀ text ∈ [heroesQuery, heroFragment], OnlyExecutable text := by
    have hcheck : [heroesQuery, heroFragment].all (fun text =>
        (definitionsIn text).all fun v => (sourceOf? v).isSome) = true := by decide +kernel
    simp only [List.all_eq_true] at hcheck
    exact hcheck
  obtain ⟨whole, hwhole, hparse, -⟩ := files_parse_together (List.cons_ne_nil _ _)
    (.cons hquery (.cons hfragment .nil)) (.cons hd (.cons he .nil)) hall
  have htwice : ∀ name, ¬ DefinedTwice [d, e] name := by
    simp [definedTwice_cons, not_definedTwice_nil, Shares, hnone]
  refine ⟨d, e, whole, hd, he, hheroes, hhero, hwhole, ?_⟩
  simpa using hparse htwice

/-- No files make the empty text, which is no document. -/
theorem noFiles_refused :
    outcome (concatenate (FileTree.environment fun _ => none) []) (heroFiles, []) = (.ok "", heroFiles, []) ∧
      Document.parse "" = .error .malformed := by
  have hlexemes : Source.lexemes? "".toList = some [] := by decide +kernel
  refine ⟨rfl, ?_⟩
  rw [Document.parse, hlexemes]

end Program

end TypedQuery
