/-
The option that names the configuration file, in front of a command. Its events
are one however it is written (`NamesConfig.scan`), and a command does not look
at what is in front of it. So arguments that name no configuration file ask for
the same with that option in front of them, apart from the file
(`parse_config`).
-/
import TypedQuery.Command
import Mathlib.Data.List.TakeWhile

namespace TypedQuery

/-- The same, with the configuration file at a path. -/
def Wish.withConfig (path : String) : Wish → Wish
  | .run invocation => .run { invocation with config? := some path }
  | wish => wish

namespace Command

variable {path name : String} {front rest : List String} {config? : Option String}

/-- The arguments name a configuration file: with the option in one argument, or behind it. -/
inductive NamesConfig (path : String) : List String → Prop
  | attached : NamesConfig path ["--config=" ++ path]
  | behind (h : Event.isValue path = true) : NamesConfig path ["--config", path]

theorem toList_attached (path : String) :
    ("--config=" ++ path).toList = '-' :: '-' :: ("config=".toList ++ path.toList) := by
  rw [String.toList_append]
  rfl

/-! ## Where the command begins -/

theorem splitAtName_name (hname : Event.isValue name = true) :
    splitAtName false (name :: rest) = ([], some (name, rest)) := by
  rw [splitAtName, hname]
  rfl

/-- The value of an option and what is no value are in front of the command. -/
theorem splitAtName_front {argument : String} {valueNext : Bool}
    (h : (valueNext && Event.isValue argument || !Event.isValue argument) = true) (hdashes : argument ≠ "--")
    (arguments : List String) : splitAtName valueNext (argument :: arguments) =
      (argument :: (splitAtName (argument = "--config") arguments).1,
        (splitAtName (argument = "--config") arguments).2) := by
  rw [splitAtName, if_pos h]
  simp only [if_neg hdashes]

theorem NamesConfig.splitAtName (h : NamesConfig path front) (hname : Event.isValue name = true) :
    Command.splitAtName false (front ++ name :: rest) = (front, some (name, rest)) := by
  cases h with
  | attached =>
    have hlong : ∀ s : String, s.toList.length < 9 → "--config=" ++ path ≠ s := by
      rintro s hshort rfl
      rw [toList_attached] at hshort
      simp at hshort
      omega
    have hvalue : Event.isValue ("--config=" ++ path) = false := by
      rw [Event.isValue, toList_attached, decide_eq_false (hlong "-" (by decide))]
      rfl
    rw [List.singleton_append, splitAtName_front (by rw [hvalue]; rfl) (hlong "--" (by decide)),
      decide_eq_false (hlong "--config" (by decide)), splitAtName_name hname]
  | behind hpath =>
    have hconfig : path ≠ "--config" := by
      rintro rfl
      exact absurd hpath (by decide)
    have hdashes : path ≠ "--" := by
      rintro rfl
      exact absurd hpath (by decide)
    rw [List.cons_append, List.singleton_append, splitAtName_front (by decide) (by decide), decide_eq_true rfl,
      splitAtName_front (by rw [hpath]; rfl) hdashes, decide_eq_false hconfig, splitAtName_name hname]

/-! ## The events in front of it -/

theorem splitLong_attached (path : String) :
    Event.splitLong ("config=".toList ++ path.toList) = ("config", some path) := by
  have hname : ("config=".toList ++ path.toList).takeWhile (· ≠ '=') = "config".toList := rfl
  rw [Event.splitLong, hname]
  simp

theorem NamesConfig.scan (h : NamesConfig path front) :
    Event.scan programOptions none front = [.option "config" path] := by
  cases h with
  | attached =>
    have hlong := splitLong_attached path
    obtain ⟨c, cs, hcs⟩ : ∃ c cs, "config=".toList ++ path.toList = c :: cs := ⟨_, _, rfl⟩
    rw [hcs] at hlong
    rw [Event.scan, toList_attached, hcs]
    simp only [hlong]
    rfl
  | behind hpath =>
    have hopen : Event.scan programOptions none ["--config", path] =
        Event.scan programOptions (some "config") [path] := rfl
    rw [hopen, Event.scan, hpath]
    rfl

theorem parse_name (hname : Event.isValue name = true) : parse (name :: rest) = ofName name none rest := by
  rw [parse, splitAtName_name hname]
  rfl

theorem NamesConfig.parse (h : NamesConfig path front) (hname : Event.isValue name = true) (hpath : path ≠ "") :
    Command.parse (front ++ name :: rest) = ofName name (some path) rest := by
  have hpath? : path? path = some path := if_neg hpath
  rw [Command.parse, h.splitAtName hname]
  simp only [h.scan, List.foldlM_cons, List.foldlM_nil, takeGlobal, hpath?]
  rfl

/-! ## The command behind it -/

/-- A reading that ends without a state does not end in a command that is run. -/
def Stops {σ : Type} (x : Step σ) : Prop := ∀ invocation, x ≠ .error (.run invocation)

section stops

variable {σ τ : Type}

theorem stops_ok (s : σ) : Stops (.ok s) := fun _ h => by cases h

theorem stops_misuse : Stops (misuse : Step σ) := fun _ h => by cases h

theorem Stops.bind {x : Step σ} {f : σ → Step τ} (hx : Stops x) (hf : ∀ s, Stops (f s)) : Stops (x >>= f) := by
  cases x with
  | error wish => exact fun invocation h => hx invocation (by injection h with h; rw [h])
  | ok s => exact hf s

theorem stops_once (old? new? : Option σ) : Stops (once old? new?) := by
  unfold once
  split
  · exact stops_misuse
  · exact stops_ok _

theorem stops_pair (parse : String → Except String (String × String)) (text : String) : Stops (pair parse text) := by
  unfold pair
  split
  · exact stops_ok _
  · exact fun _ h => by cases h

theorem stops_takeGlobal {own : Event → σ → Step σ} (hown : ∀ e s, Stops (own e s)) (e : Event)
    (s : Option String × σ) : Stops (takeGlobal own e s) := by
  unfold takeGlobal
  split
  · exact (stops_once _ _).bind fun _ => stops_ok _
  · exact stops_ok _
  · exact fun _ h => by cases h
  · exact fun _ h => by cases h
  · exact stops_misuse
  · exact stops_misuse
  · exact (hown _ _).bind fun _ => stops_ok _

theorem stops_foldlM {step : σ → Event → Step σ} (hstep : ∀ s e, Stops (step s e)) (events : List Event) (s : σ) :
    Stops (events.foldlM step s) := by
  induction events generalizing s with
  | nil => exact stops_ok s
  | cons e events ih =>
    rw [List.foldlM_cons]
    exact (hstep s e).bind ih

end stops

theorem stops_takeGenerate (e : Event) (o : GenerateOptions) : Stops (takeGenerate e o) := by
  unfold takeGenerate
  split
  · refine Stops.bind ?_ fun _ => stops_ok _
    cases path? _ with
    | none => exact stops_misuse
    | some path => exact stops_ok path
  · exact (stops_once _ _).bind fun _ => stops_ok _
  · exact (stops_pair _ _).bind fun _ => stops_ok _
  · exact (stops_once _ _).bind fun _ => stops_ok _
  · exact (stops_once _ _).bind fun _ => stops_ok _
  · exact stops_misuse

theorem stops_takeIntrospect (e : Event) (o : IntrospectOptions) : Stops (takeIntrospect e o) := by
  unfold takeIntrospect
  split
  · exact (stops_once _ _).bind fun _ => stops_ok _
  · exact (stops_pair _ _).bind fun _ => stops_ok _
  · exact (stops_once _ _).bind fun _ => stops_ok _
  · exact (stops_once _ _).bind fun _ => stops_ok _
  · exact (stops_once _ _).bind fun _ => stops_ok _
  · exact stops_misuse

theorem parseCommand_some {σ : Type} {specs : List OptionSpec} {own : Event → σ → Step σ} {start : σ}
    {toCommand : σ → Command} (hown : ∀ e s, Stops (own e s))
    (hnone : ∀ invocation, parseCommand specs own start toCommand none rest = .run invocation →
      invocation.config? = none) :
    parseCommand specs own start toCommand (some path) rest =
      (parseCommand specs own start toCommand none rest).withConfig path := by
  have hstops := stops_foldlM (fun s e => stops_takeGlobal hown e s) (Event.scan specs none rest) (none, start)
  rw [parseCommand, parseCommand]
  rw [parseCommand] at hnone
  generalize (Event.scan specs none rest).foldlM (fun s e => takeGlobal own e s) (none, start) = read at hstops hnone ⊢
  rcases read with wish | ⟨inner?, o⟩
  · cases wish with
    | run invocation => exact absurd rfl (hstops invocation)
    | _ => rfl
  · obtain rfl : inner? = none := by simpa using hnone _ rfl
    rfl

/-- A command without a configuration file of its own takes the one in front of it. -/
theorem ofName_some (hnone : ∀ invocation, ofName name none rest = .run invocation → invocation.config? = none) :
    ofName name (some path) rest = (ofName name none rest).withConfig path := by
  unfold ofName at hnone ⊢
  split
  · exact parseCommand_some stops_takeGenerate hnone
  · exact parseCommand_some stops_takeIntrospect hnone
  · split <;> rfl
  · rfl

/-- Naming a configuration file in front of a command that names none changes nothing else. -/
theorem parse_config (h : NamesConfig path front) (hname : Event.isValue name = true) (hpath : path ≠ "")
    (hnone : ∀ invocation, parse (name :: rest) = .run invocation → invocation.config? = none) :
    parse (front ++ name :: rest) = (parse (name :: rest)).withConfig path := by
  rw [parse_name hname] at hnone ⊢
  rw [h.parse hname hpath, ofName_some hnone]

end Command

end TypedQuery
