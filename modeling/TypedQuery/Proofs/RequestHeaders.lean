/-
The headers of a request for a schema. They come from the settings and from
the arguments, and are set one after another in a table, where a name counts
without regard to case and what is set last stays. So a header has the value
of the last argument that gives it, or else of the last setting
(`effective_lookup?`), and its content is JSON whatever they say. One that is
not well formed ends the program before anything is sent (`run_headers`).
-/
import Mathlib
import TypedQuery.Proofs.Occurrence
import TypedQuery.Proofs.WorkingDirectory

namespace TypedQuery

namespace Http

/-- The value of a header in a table of headers, whose names are in lower case. -/
def lookup? (table : List (String × String)) (name : String) : Option String :=
  (table.find? (·.1 = foldName name)).map (·.2)

/-- The value that a list gives a header last. -/
def lastNamed? (headers : List (String × String)) (name : String) : Option String :=
  (headers.reverse.find? fun h => sameName h.1 name).map (·.2)

/-- A table of headers: names in lower case, each once. -/
structure IsTable (table : List (String × String)) : Prop where
  folded : ∀ h ∈ table, foldName h.1 = h.1
  nodup : (table.map (·.1)).Nodup

section tables

variable {table headers more : List (String × String)} {name other value : String}

theorem sameName_iff : sameName name other = true ↔ foldName name = foldName other := decide_eq_true_iff

theorem foldName_foldName (name : String) : foldName (foldName name) = foldName name := by
  simp [foldName, Function.comp_def]

/-- Setting a header that is there changes values only. -/
theorem setHeader_eq (table : List (String × String)) (name value : String) : setHeader table name value =
    if table.any (·.1 = foldName name) then table.map fun p => (p.1, if p.1 = foldName name then value else p.2)
    else table ++ [(foldName name, value)] := by
  have hpair : (fun p : String × String => if p.1 = foldName name then (p.1, value) else (p.1, p.2)) =
      fun p => (p.1, if p.1 = foldName name then value else p.2) := by
    funext p
    split <;> rfl
  exact congrArg (fun f : String × String → String × String => if table.any (·.1 = foldName name) then table.map f
    else table ++ [(foldName name, value)]) hpair

/-- Setting a header changes what is looked up under its name only. -/
theorem lookup?_setHeader (table : List (String × String)) (name value other : String) :
    lookup? (setHeader table name value) other =
      if sameName name other then some value else lookup? table other := by
  rw [setHeader_eq, lookup?]
  split
  next hset =>
    rw [List.find?_map, lookup?]
    cases hfound : table.find? (·.1 = foldName other) with
    | none =>
      have hother : ¬ sameName name other = true := by
        rw [sameName_iff]
        intro hsame
        obtain ⟨p, hp, hname⟩ := List.any_eq_true.1 hset
        exact List.find?_eq_none.1 hfound p hp (hsame ▸ hname)
      simp [hfound, hother]
    | some p =>
      have hname : p.1 = foldName other := by simpa using List.find?_some hfound
      simp only [Function.comp_def, hfound, Option.map_some, hname]
      by_cases hsame : foldName name = foldName other
      · simp [sameName_iff, hsame]
      · rw [if_neg (Ne.symm hsame), if_neg (mt sameName_iff.1 hsame)]
  next hnew =>
    rw [List.find?_append]
    by_cases hsame : foldName name = foldName other
    · have hnone : table.find? (·.1 = foldName other) = none :=
        List.find?_eq_none.2 fun p hp hname => hnew (List.any_eq_true.2 ⟨p, hp, hsame ▸ hname⟩)
      simp [hnone, sameName_iff, hsame]
    · have hother : [(foldName name, value)].find? (·.1 = foldName other) = none := by simp [hsame]
      rw [hother, Option.or_none, if_neg (mt sameName_iff.1 hsame), lookup?]

theorem isTable_nil : IsTable [] := ⟨List.forall_mem_nil _, List.nodup_nil⟩

theorem IsTable.setHeader (h : IsTable table) (name value : String) : IsTable (setHeader table name value) := by
  rw [setHeader_eq]
  split
  next => exact ⟨List.forall_mem_map.2 h.folded, by simpa [Function.comp_def] using h.nodup⟩
  next hnew =>
    refine ⟨List.forall_mem_append.2 ⟨h.folded, by simp [foldName_foldName]⟩, ?_⟩
    rw [List.map_append, List.map_singleton, ← List.concat_eq_append]
    refine h.nodup.concat fun hmem => hnew ?_
    obtain ⟨p, hp, hname⟩ := List.mem_map.1 hmem
    exact List.any_eq_true.2 ⟨p, hp, by simpa using hname⟩

/-! ## What a list gives last -/

theorem lastNamed?_append (headers more : List (String × String)) (name : String) :
    lastNamed? (headers ++ more) name = (lastNamed? more name).or (lastNamed? headers name) := by
  rw [lastNamed?, List.reverse_append, List.find?_append, Option.map_or]
  rfl

theorem lastNamed?_congr (h : foldName name = foldName other) : lastNamed? headers name = lastNamed? headers other := by
  simp only [lastNamed?, sameName, h]

theorem lastNamed?_isNone : (lastNamed? headers name).isNone = !headers.any fun h => sameName h.1 name := by
  rw [lastNamed?, Option.isNone_map, ← Option.not_isSome, List.isSome_find?, List.any_reverse]

/-- Leaving out headers that are given elsewhere leaves the others alone. -/
theorem lastNamed?_filter (h : lastNamed? more name = none) :
    lastNamed? (headers.filter fun p => (lastNamed? more p.1).isNone) name = lastNamed? headers name := by
  have hkept : (fun p : String × String => decide ((lastNamed? more p.1).isNone = true ∧ sameName p.1 name = true)) =
      fun p => sameName p.1 name := by
    funext p
    cases hsame : sameName p.1 name with
    | false => simp
    | true => simp [lastNamed?_congr (sameName_iff.1 hsame), h]
  rw [lastNamed?, lastNamed?, ← List.filter_reverse, List.find?_filter, hkept]

/-- Headers that are set one after another have the values that they are given last. -/
theorem lookup?_foldl (headers table : List (String × String)) (name : String) :
    lookup? (headers.foldl (fun table h => setHeader table h.1 h.2) table) name =
      (lastNamed? headers name).or (lookup? table name) := by
  induction headers generalizing table with
  | nil => rfl
  | cons h headers ih =>
    rw [List.foldl_cons, ih, lookup?_setHeader, ← List.singleton_append, lastNamed?_append, Option.or_assoc]
    congr 1
    by_cases hsame : sameName h.1 name <;> simp [lastNamed?, hsame]

/-- Headers that are set one after another make a table. -/
theorem IsTable.foldl (h : IsTable table) (headers : List (String × String)) :
    IsTable (headers.foldl (fun table p => Http.setHeader table p.1 p.2) table) := by
  induction headers generalizing table with
  | nil => exact h
  | cons p headers ih => exact ih (h.setHeader p.1 p.2)

end tables

end Http

namespace Introspection

open Http

/-- What is wrong with a header: its name counts before its value. -/
def headerError? (h : String × String) : Option FetchError :=
  if !isHeaderName h.1 then some (.invalidHeaderName h.1)
  else if !isHeaderValue h.2 then some (.invalidHeaderValue h.1)
  else none

/-- The headers that count: settings whose names no argument gives, and then the arguments. -/
def countedHeaders (configured given : List (String × String)) : List (String × String) :=
  configured.filter (fun h => (lastNamed? given h.1).isNone) ++ given

/-- The value that a header is sent with, if it is sent. -/
def effective? (configured given : List (String × String)) (name : String) : Option String :=
  if sameName "content-type" name then some "application/json"
  else (lastNamed? given name).or (lastNamed? configured name)

section request

variable {configured given headers table : List (String × String)} {url : String}

theorem effectiveHeaders_eq (configured given : List (String × String)) :
    effectiveHeaders configured given = countedHeaders configured given := by
  simp only [effectiveHeaders, countedHeaders, lastNamed?_isNone]

/-- A header is set unless something is wrong with it. -/
theorem headerStep_eq (table : List (String × String)) (h : String × String) :
    (if !isHeaderName h.1 then .error (.invalidHeaderName h.1)
      else if !isHeaderValue h.2 then .error (.invalidHeaderValue h.1)
      else .ok (setHeader table h.1 h.2) : Except FetchError (List (String × String))) =
    match headerError? h with
    | some e => .error e
    | none => .ok (setHeader table h.1 h.2) := by
  unfold headerError?
  split
  next => rfl
  next => split <;> rfl

/-- Headers are set one after another if there is nothing wrong with any of them. -/
theorem headerMap_eq (headers : List (String × String)) : headerMap headers =
    match headers.findSome? headerError? with
    | some e => .error e
    | none => .ok (headers.foldl (fun table h => setHeader table h.1 h.2) []) := by
  unfold headerMap
  generalize ([] : List (String × String)) = table
  induction headers generalizing table with
  | nil => rfl
  | cons h headers ih =>
    obtain ⟨name, value⟩ := h
    rw [List.foldlM_cons, List.findSome?_cons]
    dsimp only
    rw [headerStep_eq table (name, value)]
    cases headerError? (name, value) with
    | some e => rfl
    | none => exact ih (setHeader table name value)

/-- The last value of each name counts, that of an argument before that of a setting. -/
theorem lastNamed?_countedHeaders (configured given : List (String × String)) (name : String) :
    lastNamed? (countedHeaders configured given) name = (lastNamed? given name).or (lastNamed? configured name) := by
  rw [countedHeaders, lastNamed?_append]
  cases hgiven : lastNamed? given name with
  | some value => rfl
  | none => rw [Option.none_or, Option.none_or, lastNamed?_filter hgiven]

/-- **The headers of a request**: without a header that is wrong, there is a request with a table of headers, in which
each header has its effective value; otherwise the first that is wrong is the error. -/
theorem request_headers (url : String) (configured given : List (String × String)) :
    match (countedHeaders configured given).findSome? headerError? with
    | some e => request url (effectiveHeaders configured given) = .error e
    | none => ∃ r, request url (effectiveHeaders configured given) = .ok r ∧ r.url = url ∧ r.body = requestBody ∧
      IsTable r.headers ∧ ∀ name, lookup? r.headers name = effective? configured given name := by
  rw [request, effectiveHeaders_eq, headerMap_eq]
  cases hwrong : (countedHeaders configured given).findSome? headerError? with
  | some e => rfl
  | none =>
    refine ⟨_, rfl, rfl, rfl, (isTable_nil.foldl _).setHeader _ _, fun name => ?_⟩
    rw [lookup?_setHeader, lookup?_foldl, lastNamed?_countedHeaders, effective?]
    simp [lookup?]

end request

end Introspection

/-! ## Where the headers come from -/

namespace Config

theorem foldlM_keeps {σ α : Type} {P : σ → Prop} {f : σ → α → Option σ} {l : List α} {s s' : σ}
    (hstep : ∀ s a s', P s → f s a = some s' → P s') (hs : P s) (h : l.foldlM f s = some s') : P s' := by
  induction l generalizing s with
  | nil =>
    cases h
    exact hs
  | cons a l ih =>
    rw [List.foldlM_cons] at h
    obtain ⟨s₁, hfirst, hrest⟩ := Option.bind_eq_some_iff.1 h
    exact ih (hstep s a s₁ hs hfirst) hrest

/-- The headers are in the order of their names. -/
def Ordered (c : FetchConfig) : Prop := c.headers.Pairwise fun a b => a.1 ≤ b.1

section ordered

variable {c c' : FetchConfig} {d d' : Config} {key : String} {v : Toml}

theorem ordered_empty : Ordered {} := .nil

theorem stringTable?_ordered {table : List (String × String)} (h : stringTable? v = some table) :
    table.Pairwise fun a b => a.1 ≤ b.1 := by
  cases v with
  | table entries =>
    obtain ⟨pairs, -, hsorted⟩ := Option.bind_eq_some_iff.1 h
    cases hsorted
    refine (List.pairwise_mergeSort (fun a b c => ?_) (fun a b => ?_) pairs).imp fun hle => by simpa using hle
    · simpa using le_trans
    · simpa using le_total a.1 b.1
  | string | integer | array => cases h

theorem setFetch_ordered (hc : Ordered c) (h : setFetch c key v = some c') : Ordered c' := by
  unfold setFetch at h
  split at h
  case h_5 =>
    obtain ⟨table, htable, rfl⟩ := Option.map_eq_some_iff.1 h
    exact stringTable?_ordered htable
  case h_6 => cases h
  all_goals
    obtain ⟨_, -, rfl⟩ := Option.map_eq_some_iff.1 h
    exact hc

theorem fetch?_ordered (h : fetch? v = some c) : Ordered c := by
  have hstep : ∀ (c : FetchConfig) (entry : String × Toml) c', Ordered c → setFetch c entry.1 entry.2 = some c' →
      Ordered c' := fun _ _ _ => setFetch_ordered
  cases v with
  | table entries => exact foldlM_keeps hstep ordered_empty h
  | array items => exact foldlM_keeps hstep ordered_empty h
  | string | integer => cases h

theorem set_ordered (hd : Ordered d.introspection) (h : d.set key v = some d') : Ordered d'.introspection := by
  unfold set at h
  split at h
  case h_5 =>
    obtain ⟨c, hc, rfl⟩ := Option.map_eq_some_iff.1 h
    exact fetch?_ordered hc
  case h_6 => cases h
  all_goals
    obtain ⟨_, -, rfl⟩ := Option.map_eq_some_iff.1 h
    exact hd

/-- The settings of a file have their headers in order. -/
theorem ofFile_ordered {path text : String} (h : Config.ofFile path text = .ok d) : Ordered d.introspection := by
  unfold Config.ofFile at h
  cases hparse : Config.parse? text with
  | none =>
    rw [hparse] at h
    cases h
  | some d' =>
    rw [hparse] at h
    cases h
    obtain ⟨entries, -, hentries⟩ := Option.bind_eq_some_iff.1 hparse
    have hordered : Ordered d'.introspection :=
      foldlM_keeps (P := fun d => Ordered d.introspection) (fun _ _ _ => set_ordered) ordered_empty hentries
    exact hordered

end ordered

end Config

namespace Command

/-- The header that an option gives. -/
def Event.header? : Event → Option (String × String)
  | .option "header" value => (parseHeader value).toOption
  | _ => none

/-- The headers that the options of `introspect` give, in order. -/
def givenHeaders (arguments : List String) : List (String × String) :=
  match (splitAtName false arguments).2 with
  | some (_, rest) => (Event.scan introspectOptions none rest).filterMap Event.header?
  | none => []

section given

variable {e : Event} {o o' : IntrospectOptions} {s s' : Option String × IntrospectOptions}

/-- An event gives a header or leaves the headers alone. -/
theorem takeIntrospect_headers (h : takeIntrospect e o = .ok o') : o'.headers = o.headers ++ e.header?.toList := by
  unfold takeIntrospect at h
  split at h
  case h_2 value =>
    obtain ⟨p, hp, h⟩ := bind_eq_ok.1 h
    cases h
    unfold pair at hp
    split at hp
    next hparsed =>
      cases hp
      simp [Event.header?, hparsed, Except.toOption]
    next => cases hp
  case h_6 => cases h
  all_goals
    obtain ⟨_, -, h⟩ := bind_eq_ok.1 h
    cases h
    exact (List.append_nil _).symm

theorem takeGlobal_headers (h : takeGlobal takeIntrospect e s = .ok s') :
    s'.2.headers = s.2.headers ++ e.header?.toList := by
  unfold takeGlobal at h
  split at h
  case h_1 =>
    obtain ⟨_, -, h⟩ := bind_eq_ok.1 h
    cases h
    exact (List.append_nil _).symm
  case h_2 =>
    cases h
    exact (List.append_nil _).symm
  case h_7 =>
    obtain ⟨o, ho, h⟩ := bind_eq_ok.1 h
    cases h
    exact takeIntrospect_headers ho
  all_goals cases h

theorem foldlM_headers {events : List Event} (h : events.foldlM (fun s e => takeGlobal takeIntrospect e s) s = .ok s') :
    s'.2.headers = s.2.headers ++ events.filterMap Event.header? := by
  induction events generalizing s with
  | nil =>
    cases h
    simp
  | cons e events ih =>
    rw [List.foldlM_cons] at h
    obtain ⟨s₁, hfirst, hrest⟩ := bind_eq_ok.1 h
    rw [ih hrest, takeGlobal_headers hfirst, List.append_assoc, List.filterMap_cons]
    cases e.header? <;> rfl

/-- A command that is run has read its arguments to the end. -/
theorem parseCommand_run {σ : Type} {specs : List OptionSpec} {own : Event → σ → Step σ} {start : σ}
    {toCommand : σ → Command} {config? : Option String} {arguments : List String} {invocation : Invocation}
    (hown : ∀ e s, Stops (own e s))
    (h : parseCommand specs own start toCommand config? arguments = .run invocation) :
    ∃ s, (Event.scan specs none arguments).foldlM (fun s e => takeGlobal own e s) (none, start) = .ok s ∧
      invocation.command = toCommand s.2 := by
  have hstops := stops_foldlM (fun s e => stops_takeGlobal hown e s) (Event.scan specs none arguments) (none, start)
  unfold parseCommand at h
  generalize (Event.scan specs none arguments).foldlM (fun s e => takeGlobal own e s) (none, start) = read at hstops h
  rcases read with wish | s
  · dsimp only at h
    exact absurd (congrArg Except.error h) (hstops invocation)
  · cases h
    exact ⟨s, rfl, rfl⟩

/-- The headers of a fetching are those that its options give, in order. -/
theorem parse_headers {arguments : List String} {config? : Option String}
    (h : parse arguments = .run ⟨config?, .introspect o⟩) : o.headers = givenHeaders arguments := by
  have hfront := stops_foldlM (fun s e => stops_takeGlobal (fun _ _ => stops_misuse) e s)
    (Event.scan programOptions none (splitAtName false arguments).1) (none, ())
  unfold parse at h
  dsimp only at h
  split at h
  next wish hwish =>
    rw [hwish] at hfront
    exact absurd (congrArg Except.error h) (hfront _)
  next =>
    split at h
    next => cases h
    next name rest hfound =>
      unfold ofName at h
      split at h
      next =>
        obtain ⟨s, -, hcommand⟩ := parseCommand_run stops_takeGenerate h
        cases hcommand
      next =>
        obtain ⟨s, hread, hcommand⟩ := parseCommand_run stops_takeIntrospect h
        cases hcommand
        rw [foldlM_headers hread, givenHeaders, hfound]
        rfl
      next => split at h <;> cases h
      next => cases h

end given

end Command

/-! ## The program -/

/-- The world keeps the requests that were sent, and nothing else adds to them. -/
structure Environment.Records {σ : Type} (env : Environment (StateM σ)) (sent : σ → List Http.Request) : Prop where
  isFile : ∀ path w, sent ((env.isFile path).run w).2 = sent w
  read : ∀ path w, sent ((env.read path).run w).2 = sent w
  makeDirectories : ∀ path w, sent ((env.makeDirectories path).run w).2 = sent w
  write : ∀ path text w, sent ((env.write path text).run w).2 = sent w
  send : ∀ r w, sent ((env.send r).run w).2 = sent w ++ [r]

theorem FileTree.environment_records (send : Http.Request → Option Http.Response) :
    (FileTree.environment send).Records (·.2) where
  isFile _ _ := rfl
  read _ _ := rfl
  makeDirectories _ _ := rfl
  write path text w := by
    rw [run_write]
    split <;> rfl
  send _ _ := rfl

namespace Program

open Introspection

section

variable {σ : Type} {env : Environment (StateM σ)} {sent : σ → List Http.Request}

section records

variable (henv : env.Records sent)
include henv

theorem keeps_deliver (text : String) (path? : Option String) : Keeps sent (deliver env text path?) := by
  cases path? with
  | none => exact keeps_pure
  | some path =>
    have hparent : ∀ w, sent ((makeParent env path).run w).2 = sent w := by
      unfold makeParent
      cases Path.directory? path with
      | none => exact fun _ => rfl
      | some directory => exact henv.makeDirectories directory
    rw [deliver_some]
    exact (keeps_attempt hparent).bind fun _ => (keeps_attempt (henv.write path text)).bind fun _ => keeps_pure

/-- A fetching sends its request, if it has one, and nothing after that. -/
theorem introspect_sends {o : IntrospectOptions} {c : FetchConfig} {url : String}
    (hurl : (o.endpoint? <|> c.endpoint?) = some url) (w : σ) :
    match request url (effectiveHeaders c.headers o.headers) with
    | .error e => outcome (introspect env o c) w = (.error (.fetch e), w)
    | .ok r => sent (outcome (introspect env o c) w).2 = sent w ++ [r] := by
  rw [introspect, outcome_bind, outcome_demand, hurl]
  simp only [Option.elim_some, outcome_bind, outcome_check, outcome_lift]
  cases request url (effectiveHeaders c.headers o.headers) with
  | error e => rfl
  | ok r =>
    dsimp only [Except.mapError]
    rw [← henv.send r w]
    cases interpret ((env.send r).run w).1 with
    | error e => rfl
    | ok sdl => exact keeps_deliver henv sdl _ _

end records

theorem loadConfig_ordered {path? : Option String} {c : Config} {w w' : σ}
    (h : outcome (loadConfig env path?) w = (.ok c, w')) : Config.Ordered c.introspection := by
  have hload : ∀ path w, outcome (loadConfig.load env path) w = (.ok c, w') → Config.Ordered c.introspection := by
    intro path w h
    rw [outcome_load] at h
    rcases hread : (env.read path).run w with ⟨e | text, w₁⟩ <;> rw [hread] at h
    · cases h
    · exact Config.ofFile_ordered (congrArg Prod.fst h)
  cases path? with
  | some path => exact hload path w h
  | none =>
    rw [loadConfig, outcome_bind, outcome_monadLift] at h
    dsimp only at h
    split at h
    · exact hload _ _ h
    · cases h
      exact Config.ordered_empty

theorem ending_world (result : Except ProgramError String × σ) : (ending result).2 = result.2 := by
  rcases result with ⟨e | output, w⟩ <;> rfl

/-- **The headers of the request that the program sends.** The settings are in the order of the names. Unless a header
that counts is wrong, exactly one request is sent; its headers are a table, in which each has its effective value. The
first header that is wrong ends the program, and nothing is sent. -/
theorem run_headers (henv : env.Records sent) {arguments : List String} {config? : Option String}
    {o : IntrospectOptions} {c : Config} {w w₁ : σ} {url : String}
    (hparse : Command.parse arguments = .run ⟨config?, .introspect o⟩)
    (hload : outcome (loadConfig env config?) w = (.ok c, w₁))
    (hurl : (o.endpoint? <|> c.introspection.endpoint?) = some url) :
    let configured := c.introspection.headers
    let given := Command.givenHeaders arguments
    (configured.Pairwise fun a b => a.1 ≤ b.1) ∧
    match (countedHeaders configured given).findSome? headerError? with
    | some e => (run env arguments).run w = (.failed (.fetch e), w₁) ∧ sent w₁ = sent w
    | none => ∃ r, sent ((run env arguments).run w).2 = sent w ++ [r] ∧ r.url = url ∧ r.body = requestBody ∧
      Http.IsTable r.headers ∧ ∀ name, Http.lookup? r.headers name = effective? configured given name := by
  intro configured given
  refine ⟨loadConfig_ordered hload, ?_⟩
  have hrequest := request_headers url configured given
  have hsilent : sent w₁ = sent w := by
    have h := keeps_loadConfig henv.isFile henv.read config? w
    rwa [hload] at h
  have hgiven : o.headers = given := Command.parse_headers hparse
  have hperform : outcome (perform env ⟨config?, .introspect o⟩) w =
      outcome (introspect env o c.introspection) w₁ := by
    rw [perform, outcome_bind, hload]
  have hsends := introspect_sends henv hurl w₁
  rw [hgiven] at hsends
  rw [run_of_parse hparse, hperform]
  cases hwrong : (countedHeaders configured given).findSome? headerError? with
  | some e =>
    rw [hwrong] at hrequest
    rw [hrequest] at hsends
    rw [hsends]
    exact ⟨rfl, hsilent⟩
  | none =>
    rw [hwrong] at hrequest
    obtain ⟨r, hr, hfields⟩ := hrequest
    rw [hr] at hsends
    refine ⟨r, ?_, hfields⟩
    rw [ending_world, hsends, hsilent]

end

/-! Settings that name one header twice, and arguments that give another twice. -/

def doubledText : String := "[introspection.headers]\nx-id = \"new\"\nX-Id = \"old\""

def doubledSettings : FetchConfig where
  headers := [("X-Id", "old"), ("x-id", "new")]

theorem parse?_doubledText : Config.parse? doubledText = some { introspection := doubledSettings } := by cbv

def doubledTree : FileTree := .ofFiles [(defaultConfigPath, doubledText)]

def doubledArguments (token : String) : List String :=
  ["introspect", "--endpoint", "http://localhost", "--header", "token: old", "--header=TOKEN: " ++ token]

/-- The program beside these settings, with no server. -/
def doubledRun (token : String) : Outcome × FileTree × List Http.Request :=
  (run (FileTree.environment fun _ => none) (doubledArguments token)).run (doubledTree, [])

/-- What is given last counts before the settings, and of these the last in the order of names. With a line break in
the token nothing is sent. -/
theorem doubled_headers :
    (∃ r, (doubledRun "new").2.2 = [r] ∧ Http.IsTable r.headers ∧ Http.lookup? r.headers "Token" = some "new" ∧
      Http.lookup? r.headers "X-ID" = some "new" ∧
      Http.lookup? r.headers "content-type" = some "application/json" ∧ Http.lookup? r.headers "accept" = none) ∧
    (doubledRun "a\nb").1 = .failed (.fetch (.invalidHeaderValue "TOKEN")) ∧ (doubledRun "a\nb").2.2 = [] := by
  let env := FileTree.environment fun _ => none
  have henv : env.Records (·.2) := FileTree.environment_records fun _ => none
  have hfile : (env.isFile defaultConfigPath).run (doubledTree, []) = (true, doubledTree, []) :=
    Prod.ext (by decide +kernel) rfl
  have hread : (env.read defaultConfigPath).run (doubledTree, []) = (.ok doubledText, doubledTree, []) :=
    Prod.ext (by decide +kernel) rfl
  have hsettings : Config.ofFile defaultConfigPath doubledText = .ok { introspection := doubledSettings } := by
    rw [Config.ofFile, parse?_doubledText]
    decide +kernel
  have hload : outcome (loadConfig env none) (doubledTree, []) =
      (.ok { introspection := doubledSettings }, doubledTree, []) := by
    rw [outcome_loadDefault hfile, outcome_load, hread]
    exact congrArg (·, doubledTree, []) hsettings
  have hparse : ∀ token ∈ ["new", "a\nb"], Command.parse (doubledArguments token) =
      .run ⟨none, .introspect {
        endpoint? := some "http://localhost"
        headers := [("token", "old"), ("TOKEN", token)] }⟩ := by decide +kernel
  have hgiven : ∀ token ∈ ["new", "a\nb"], Command.givenHeaders (doubledArguments token) =
      [("token", "old"), ("TOKEN", token)] := fun token htoken =>
    (Command.parse_headers (hparse token htoken)).symm
  constructor
  · have hsent := (run_headers henv (hparse "new" (by simp)) hload rfl).2
    rw [hgiven "new" (by simp)] at hsent
    obtain ⟨r, hr, -, -, htable, hlookup⟩ := hsent
    exact ⟨r, hr, htable, by rw [hlookup]; decide, by rw [hlookup]; decide, by rw [hlookup]; decide,
      by rw [hlookup]; decide⟩
  · have hfailed := (run_headers henv (hparse "a\nb" (by simp)) hload rfl).2
    rw [hgiven "a\nb" (by simp)] at hfailed
    obtain ⟨hrun, hnothing⟩ := hfailed
    exact ⟨congrArg Prod.fst hrun, congrArg (·.2.2) hrun⟩

end Program

end TypedQuery
