/-
The laws of the registry under any registrations, strict and suffixing ones
in any order. Every entry is found under its own name, and none is ever
moved, changed or removed (`after_extends`). A strict registration fails only
against another shape of its name, and then changes nothing. A suffixing one
takes the first candidate that is open to the shape (`FirstOpen`), and finds
it again after any further registrations, since what has closed the earlier
candidates stays (`registrations_lawful`).
-/
import TypedQuery.Proofs.Repetition

namespace TypedQuery

open Generator

namespace Registry

/-- The name is free, or it holds `s` under that name. -/
def IsOpen (r : Registry) (s : Shape) (name : String) : Prop := ∀ t ∈ r.lookup? name, t = { s with name := name }

/-- `name` is the first of `Name`, `Name2`, `Name3`, … that is open to `s`. -/
def FirstOpen (r : Registry) (s : Shape) (name : String) : Prop :=
  ∃ n, name = candidate s.name n ∧ r.IsOpen s name ∧ ∀ m < n, ¬ r.IsOpen s (candidate s.name m)

theorem admits_iff {r : Registry} {s : Shape} {name : String} : r.admits s name = true ↔ r.IsOpen s name := by
  unfold admits IsOpen
  cases r.lookup? name with
  | none => simp
  | some t => simp

/-- The search for a name stops at the first one that is open. -/
theorem nameFor_firstOpen (r : Registry) (s : Shape) : r.FirstOpen s (r.nameFor s) := by
  obtain ⟨hopen, i, hi, hname, hbefore⟩ := List.find?_eq_some_iff_getElem.1 (r.find?_candidate s)
  simp only [List.getElem_map, List.getElem_range] at hname hbefore
  refine ⟨i, hname.symm, admits_iff.1 hopen, fun m hm hadmits => ?_⟩
  have hrefused := hbefore m hm
  rw [admits_iff.2 hadmits] at hrefused
  cases hrefused

theorem lookup?_of_mem {r : Registry} (h : r.names.Nodup) {t : Shape} (ht : t ∈ r.shapes) :
    r.lookup? t.name = some t := by
  obtain ⟨u, hu⟩ := Option.isSome_iff_exists.1 (contains_iff.2 (List.mem_map_of_mem ht))
  rw [hu, List.inj_on_of_nodup_map h (mem_of_lookup? hu) ht (lookup?_name hu)]

theorem register_eq_error {r : Registry} {s : Shape} {e : GenerationError} :
    r.register s = .error e ↔ ∃ t ∈ r.lookup? s.name, t ≠ s ∧ e = .nameCollision t s := by
  unfold register
  cases r.lookup? s.name with
  | none => simp
  | some t =>
    by_cases hts : t = s
    · simp [hts]
    · have hst : s ≠ t := Ne.symm hts
      simp [hts, hst, eq_comm]

end Registry

/-- A shape to be kept: under its own name, or under the first candidate that is open to it. -/
inductive Registration
  | strict (shape : Shape)
  | suffixing (shape : Shape)

namespace Registration

def keep : Registration → Generator String
  | strict s => register s (some s.name)
  | suffixing s => register s none

end Registration

namespace Progress

/-- After registrations one after the other, whatever each returns. -/
def after (p : Progress) (calls : List Registration) : Progress := calls.foldl (fun p c => (outcome c.keep p).2) p

variable {p : Progress}

theorem keep_grows (c : Registration) : Generator.Grows c.keep := by
  cases c with
  | strict s => exact register_grows _ _
  | suffixing s => exact register_grows _ _

theorem after_extends (calls : List Registration) : p.Grows (p.after calls) := by
  induction calls generalizing p with
  | nil => exact .refl p
  | cons c calls ih => exact (keep_grows c p).trans ih

/-- A strict registration keeps the shape under its name, or fails against another shape of that name and changes
nothing. -/
theorem outcome_strict (p : Progress) (s : Shape) :
    (∃ p', outcome (Registration.strict s).keep p = (.ok s.name, p') ∧ p.registry.Keeps s p'.registry) ∨
      ∃ t ∈ p.registry.lookup? s.name, t ≠ s ∧
        outcome (Registration.strict s).keep p = (.error (.nameCollision t s), p) := by
  cases h : p.registry.register s with
  | ok r =>
    refine .inl ⟨⟨r, p.expanding⟩, ?_, Registry.register_keeps h⟩
    simp only [Registration.keep, register, outcome_bind, outcome_get, outcome_liftExcept, h, outcome_set, outcome_pure]
  | error e =>
    obtain ⟨t, ht, hne, rfl⟩ := Registry.register_eq_error.1 h
    refine .inr ⟨t, ht, hne, ?_⟩
    simp only [Registration.keep, register, outcome_bind, outcome_get, outcome_liftExcept, h]

/-- A suffixing registration always keeps the shape, under the first candidate that is open to it. -/
theorem outcome_suffixing (p : Progress) (s : Shape) :
    ∃ name p', outcome (Registration.suffixing s).keep p = (.ok name, p') ∧ p.registry.FirstOpen s name ∧
      p.registry.Keeps { s with name := name } p'.registry :=
  ⟨_, _, rfl, p.registry.nameFor_firstOpen s, p.registry.registerDeduplicated_keeps s⟩

theorem keep_nodup (hp : p.registry.names.Nodup) (c : Registration) : (outcome c.keep p).2.registry.names.Nodup := by
  cases c with
  | strict s =>
    rcases outcome_strict p s with ⟨p', h, hkeeps⟩ | ⟨t, -, -, h⟩
    · exact h ▸ hkeeps.nodup hp
    · exact h ▸ hp
  | suffixing s =>
    obtain ⟨name, p', h, -, hkeeps⟩ := outcome_suffixing p s
    exact h ▸ hkeeps.nodup hp

theorem after_nodup (hp : p.registry.names.Nodup) (calls : List Registration) :
    (p.after calls).registry.names.Nodup := by
  induction calls generalizing p with
  | nil => exact hp
  | cons c calls ih => exact ih (keep_nodup hp c)

end Progress

/-- **The laws of the registry**, after any registrations on an empty one. -/
theorem registrations_lawful (calls : List Registration) :
    let p := Progress.start.after calls
    (p.registry.names.Nodup ∧ ∀ t ∈ p.registry.shapes, p.registry.lookup? t.name = some t) ∧
    (∀ more, (p.after more).registry.Extends p.registry) ∧
    (∀ s, (∃ p', outcome (Registration.strict s).keep p = (.ok s.name, p') ∧ p.registry.Keeps s p'.registry) ∨
      ∃ t ∈ p.registry.lookup? s.name, t ≠ s ∧
        outcome (Registration.strict s).keep p = (.error (.nameCollision t s), p)) ∧
    ∀ s, ∃ name p', outcome (Registration.suffixing s).keep p = (.ok name, p') ∧ p.registry.FirstOpen s name ∧
      p.registry.Keeps { s with name := name } p'.registry ∧
      ∀ more, outcome (Registration.suffixing s).keep (p'.after more) = (.ok name, p'.after more) := by
  intro p
  have hnodup : p.registry.names.Nodup := Progress.after_nodup (p := .start) List.nodup_nil calls
  refine ⟨⟨hnodup, fun t ht => Registry.lookup?_of_mem hnodup ht⟩, fun more => ?_, p.outcome_strict, fun s => ?_⟩
  · exact (Progress.after_extends more).registry
  · obtain ⟨name, p', hrun, hfirst, hkeeps⟩ := p.outcome_suffixing s
    refine ⟨name, p', hrun, hfirst, hkeeps, fun more => ?_⟩
    exact register_repeats s none hrun (Progress.after_extends more)

end TypedQuery
