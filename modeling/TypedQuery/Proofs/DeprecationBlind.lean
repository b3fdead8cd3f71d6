/-
Deprecation changes nothing in what is read back. Two introspected schemas
that differ at most in the deprecation of fields and enum values (`Alike`)
have texts that are read as the same schema, whatever the reasons, if every
description ends where its text does (`Closed`). A description that ends in a
backslash does not, and the quotes of a reason after it change what is read.
-/
import TypedQuery.Proofs.SchemaRoundTrip

namespace TypedQuery

namespace Introspection

open Source Reader

/-- The same members, but for some. -/
def AgreeBut (keys : List String) (j j' : Json) : Prop := ∀ key ∉ keys, j.get key = j'.get key

/-- The members that deprecate a field or an enum value. -/
def deprecationKeys : List String := ["isDeprecated", "deprecationReason"]

/-- Types that differ at most in the deprecation of their fields and enum values. -/
structure TypesAlike (t t' : Json) : Prop where
  members : AgreeBut ["fields", "enumValues"] t t'
  fields : List.Forall₂ (AgreeBut deprecationKeys) (list t "fields") (list t' "fields")
  values : List.Forall₂ (AgreeBut deprecationKeys) (list t "enumValues") (list t' "enumValues")

/-- Schemas that differ at most in the deprecation of fields and enum values. -/
structure Alike (schema schema' : Json) : Prop where
  members : AgreeBut ["types"] schema schema'
  types : List.Forall₂ TypesAlike (list schema "types") (list schema' "types")

/-- Objects agree if their other members are the same. -/
theorem agreeBut_object {keys : List String} {members members' : List (String × Json)}
    (h : members.filter (·.1 ∉ keys) = members'.filter (·.1 ∉ keys)) :
    AgreeBut keys (.object members) (.object members') := by
  intro key hkey
  have hfind : ∀ l : List (String × Json), l.reverse.find? (·.1 = key) =
      (l.filter (·.1 ∉ keys)).reverse.find? (·.1 = key) := by
    intro l
    rw [← List.filter_reverse, List.find?_filter]
    congr 1
    funext member
    by_cases hmember : member.1 = key
    · simp [hmember, hkey]
    · simp [hmember]
  rw [Json.get, Json.get, hfind members, hfind members', h]

section AgreeBut

variable {keys : List String} {j j' : Json} {key : String}

theorem AgreeBut.text (h : AgreeBut keys j j') (hkey : key ∉ keys) : text j key = text j' key := by
  rw [Introspection.text, Introspection.text, h key hkey]

theorem AgreeBut.list (h : AgreeBut keys j j') (hkey : key ∉ keys) : list j key = list j' key := by
  rw [Introspection.list, Introspection.list, h key hkey]

theorem AgreeBut.nonEmpty? (h : AgreeBut keys j j') (hkey : key ∉ keys) : nonEmpty? j key = nonEmpty? j' key := by
  rw [Introspection.nonEmpty?, Introspection.nonEmpty?, h key hkey]

theorem AgreeBut.names (h : AgreeBut keys j j') (hkey : key ∉ keys) : names j key = names j' key := by
  rw [Introspection.names, Introspection.names, h.list hkey]

theorem AgreeBut.described {describable : String → Prop} (h : AgreeBut keys j j') (hkey : "description" ∉ keys)
    (hj : Described describable j) : Described describable j' := by
  rwa [Described, ← h.nonEmpty? hkey]

/-- The string in which a description is read. -/
def readDescription (indent : String) (j : Json) : Option String :=
  match tokensOf (description indent j).toList with
  | .string s :: _ => (some s).filter (· ≠ "")
  | _ => none

theorem AgreeBut.readDescription (h : AgreeBut keys j j') (hkey : "description" ∉ keys) (indent : String) :
    readDescription indent j = readDescription indent j' := by
  have hdescription : description indent j = description indent j' := by
    rw [description, description, h.nonEmpty? hkey]
  rw [Introspection.readDescription, Introspection.readDescription, hdescription]

end AgreeBut

theorem describes_closed : Describes Closed readDescription := by
  intro indent hindent j hj
  obtain ⟨s?, hprints⟩ := prints_description hindent hj
  refine ⟨s?, hprints, ?_⟩
  rw [readDescription, hprints.whole]
  cases s? <;> rfl

variable {t t' schema schema' : Json} {describable literal : String → Prop}

theorem map_eq_of_forall₂ {α β : Type} {R : α → α → Prop} {f : α → β} {l l' : List α} (h : List.Forall₂ R l l')
    (hf : ∀ a a', R a a' → f a = f a') : l.map f = l'.map f := by
  induction h with
  | nil => rfl
  | cons ha _ ih => rw [List.map_cons, List.map_cons, hf _ _ ha, ih]

theorem TypesAlike.typeOf?_eq (h : TypesAlike t t') : typeOf? readDescription t = typeOf? readDescription t' := by
  have hname : text t "name" = text t' "name" := h.members.text (by decide)
  have hkind : text t "kind" = text t' "kind" := h.members.text (by decide)
  have hdescription := h.members.readDescription (by decide) ""
  have hinterfaces : names t "interfaces" = names t' "interfaces" := h.members.names (by decide)
  have hmembers : names t "possibleTypes" = names t' "possibleTypes" := h.members.names (by decide)
  have hinputs : list t "inputFields" = list t' "inputFields" := h.members.list (by decide)
  have hfields : (list t "fields").map (fieldOf readDescription) =
      (list t' "fields").map (fieldOf readDescription) := by
    refine map_eq_of_forall₂ h.fields fun f f' hf => ?_
    rw [fieldOf, fieldOf, hf.text (by decide), hf "type" (by decide), hf.readDescription (by decide)]
  have hvalues : (list t "enumValues").map (valueOf readDescription) =
      (list t' "enumValues").map (valueOf readDescription) := by
    refine map_eq_of_forall₂ h.values fun v v' hv => ?_
    rw [valueOf, valueOf, hv.text (by decide), hv.readDescription (by decide)]
  unfold typeOf?
  rw [hname, hkind, hdescription, hinterfaces, hmembers, hinputs, hfields, hvalues]

theorem FieldFits.of_agreeBut {f f' : Json} (hf : FieldFits literal f) (h : AgreeBut deprecationKeys f f') :
    FieldFits literal f' := by
  have hname : text f "name" = text f' "name" := h.text (by decide)
  have hargs : list f "args" = list f' "args" := h.list (by decide)
  exact ⟨hname ▸ hf.name, h "type" (by decide) ▸ hf.type, hargs ▸ hf.args⟩

theorem forall_mem_of_forall₂ {α : Type} {R : α → α → Prop} {p : α → Prop} {l l' : List α} (h : List.Forall₂ R l l')
    (hp : ∀ a a', R a a' → p a → p a') (hl : ∀ a ∈ l, p a) : ∀ a' ∈ l', p a' := by
  induction h with
  | nil => exact fun _ ha => absurd ha List.not_mem_nil
  | cons hR _ ih =>
    obtain ⟨ha, hl⟩ := List.forall_mem_cons.1 hl
    exact List.forall_mem_cons.2 ⟨hp _ _ hR ha, ih hl⟩

theorem TypesAlike.definitionFits (h : TypesAlike t t') (ht : DefinitionFits describable literal t) :
    DefinitionFits describable literal t' := by
  have hname : text t "name" = text t' "name" := h.members.text (by decide)
  have hkind : text t "kind" = text t' "kind" := h.members.text (by decide)
  have hinputs : list t "inputFields" = list t' "inputFields" := h.members.list (by decide)
  have hinterfaces : names t "interfaces" = names t' "interfaces" := h.members.names (by decide)
  have hmembers : names t "possibleTypes" = names t' "possibleTypes" := h.members.names (by decide)
  refine ⟨hname ▸ ht.name, h.members.described (by decide) ht.description, fun hk => ?_, fun hk => ?_, fun hk => ?_,
    fun hk => ?_, fun hk => ?_⟩
  · refine forall_mem_of_forall₂ h.values (fun v v' hv hfits => ?_) (ht.values (hkind.trans hk))
    have hvalue : text v "name" = text v' "name" := hv.text (by decide)
    exact ⟨hvalue ▸ hfits.1, hv.described (by decide) hfits.2⟩
  · exact hinputs ▸ ht.inputs (hkind.trans hk)
  · exact hinterfaces ▸ ht.interfaces (hkind ▸ hk)
  · refine forall_mem_of_forall₂ h.fields (fun f f' hf hfits => ?_) (ht.fields (hkind ▸ hk))
    exact ⟨hfits.1.of_agreeBut hf, hf.described (by decide) hfits.2⟩
  · exact hmembers ▸ ht.members (hkind.trans hk)

theorem Alike.rootName?_eq (h : Alike schema schema') (kind : OperationKind) :
    rootName? schema kind = rootName? schema' kind := by
  have hkey : rootKey kind ∉ ["types"] := by cases kind <;> decide
  rw [rootName?, rootName?, h.members _ hkey]

theorem Alike.schemaFits (h : Alike schema schema') (hs : SchemaFits describable literal schema) :
    SchemaFits describable literal schema' := by
  have hname : ∀ {t t'}, TypesAlike t t' → text t "name" = text t' "name" := fun ht => ht.members.text (by decide)
  have hkind : ∀ {t t'}, TypesAlike t t' → text t "kind" = text t' "kind" := fun ht => ht.members.text (by decide)
  have hnames : (list schema "types").map (text · "name") = (list schema' "types").map (text · "name") :=
    map_eq_of_forall₂ h.types fun t t' ht => hname ht
  refine ⟨?_, fun kind => h.rootName?_eq kind ▸ hs.roots kind, ?_, ?_⟩
  · refine forall_mem_of_forall₂ h.types (fun t t' ht hfits hmeta => ?_) hs.types
    exact ht.definitionFits (hfits (hname ht ▸ hmeta))
  · exact List.pairwise_map.1 (hnames ▸ List.pairwise_map.2 hs.distinct)
  · refine forall_mem_of_forall₂ h.types (fun t t' ht hbuiltin => ?_) hs.builtin
    rwa [← hname ht, ← hkind ht]

/-- The types are written in the same order: both lists are the sides of one list of pairs. -/
theorem Alike.writtenTypes_map_eq (h : Alike schema schema') {α : Type} {f : Json → α}
    (hf : ∀ t t', TypesAlike t t' → f t = f t') : (writtenTypes schema).map f = (writtenTypes schema').map f := by
  obtain ⟨hlength, hzip⟩ := List.forall₂_iff_zip.1 h.types
  let all := (list schema "types").zip (list schema' "types")
  let pairs := all.filter fun p => !isMeta (text p.1 "name")
  have hpairs : ∀ p ∈ pairs, TypesAlike p.1 p.2 := fun p hp => hzip (List.mem_of_mem_filter hp)
  have hname : ∀ p ∈ all, text p.1 "name" = text p.2 "name" := fun p hp => (hzip hp).members.text (by decide)
  have hkind : ∀ p ∈ all, text p.1 "kind" = text p.2 "kind" := fun p hp => (hzip hp).members.text (by decide)
  have hle : ∀ p ∈ pairs, ∀ q ∈ pairs, typeLe p.1 q.1 = typeLe p.2 q.2 := by
    intro p hp q hq
    have hp := List.mem_of_mem_filter hp
    have hq := List.mem_of_mem_filter hq
    rw [typeLe, typeLe, hkind p hp, hkind q hq, hname p hp, hname q hq]
  have hleft : writtenTypes schema = (pairs.mergeSort fun p q => typeLe p.1 q.1).map Prod.fst := by
    rw [writtenTypes, List.map_mergeSort (s := typeLe) fun _ _ _ _ => rfl, ← List.map_fst_zip (Nat.le_of_eq hlength),
      List.filter_map]
    rfl
  have hright : writtenTypes schema' = (pairs.mergeSort fun p q => typeLe p.1 q.1).map Prod.snd := by
    rw [writtenTypes, List.map_mergeSort (s := typeLe) hle, ← List.map_snd_zip (Nat.le_of_eq hlength.symm),
      List.filter_map]
    have hfilter : pairs = all.filter ((fun t => !isMeta (text t "name")) ∘ Prod.snd) :=
      List.filter_congr fun p hp => by rw [Function.comp_apply, hname p hp]
    rw [hfilter]
  rw [hleft, hright, List.map_map, List.map_map]
  refine List.map_congr_left fun p hp => hf _ _ (hpairs p ?_)
  exact (List.mergeSort_perm _ _).subset hp

/-- **Deprecation changes nothing in what is read back**, if every description ends where its text does. -/
theorem parse_toSdl_alike (halike : Alike schema schema') (h : SchemaFits Closed (Literal nestingLimit) schema) :
    Schema.parse (toSdl schema) = Schema.parse (toSdl schema') := by
  have hroots : rootTypesOf schema = rootTypesOf schema' := by
    rw [rootTypesOf, rootTypesOf, halike.rootName?_eq, halike.rootName?_eq, halike.rootName?_eq]
  have htypes : (writtenTypes schema).filterMap (typeOf? readDescription) =
      (writtenTypes schema').filterMap (typeOf? readDescription) := by
    have hmapped := halike.writtenTypes_map_eq fun t t' ht => ht.typeOf?_eq
    have hread := congrArg (List.filterMap id) hmapped
    rwa [List.filterMap_map, List.filterMap_map] at hread
  rw [parse_toSdl_eq describes_closed h, parse_toSdl_eq describes_closed (halike.schemaFits h), hroots, htypes]

/-- The field, deprecated no more. -/
def currentBooks : Json :=
  .object [("name", .string "books"), ("args", booksField.get "args"), ("type", booksField.get "type")]

def currentShelf : Json :=
  .object [("queryType", .object [("name", .string "Shelf")]), ("types", .array [
    .object [("kind", .string "OBJECT"), ("name", .string "Shelf"), ("description", .string "All there is."),
      ("fields", .array [currentBooks])],
    bookEnum])]

theorem shelf_alike : Alike shelf currentShelf ∧ SchemaFits Closed (Literal nestingLimit) shelf ∧
    Schema.parse (toSdl shelf) = Schema.parse (toSdl currentShelf) := by
  have halike : Alike shelf currentShelf := by
    have hbooks : List.Forall₂ (AgreeBut deprecationKeys) [booksField] [currentBooks] :=
      .cons (agreeBut_object rfl) .nil
    have hvalues : List.Forall₂ (AgreeBut deprecationKeys) (list bookEnum "enumValues") (list bookEnum "enumValues") :=
      .cons (fun _ _ => rfl) .nil
    exact ⟨agreeBut_object rfl, .cons ⟨agreeBut_object rfl, hbooks, .nil⟩ (.cons ⟨fun _ _ => rfl, .nil, hvalues⟩ .nil)⟩
  have hfits : SchemaFits Closed (Literal nestingLimit) shelf :=
    shelf_fits (.inr ⟨_, QuotedString.closes_plain (by simp)⟩)
  exact ⟨halike, hfits, parse_toSdl_alike halike hfits⟩

/-- A field whose description ends in a backslash, perhaps deprecated. -/
def slashedField (deprecation : List (String × Json)) : Json :=
  .object ([("name", .string "a"), ("description", .string "d\\"),
    ("type", .object [("kind", .string "SCALAR"), ("name", .string "Int")])] ++ deprecation)

def nextField : Json :=
  .object [("name", .string "b"), ("type", .object [("kind", .string "SCALAR"), ("name", .string "Int")])]

def slashedType (deprecation : List (String × Json)) : Json :=
  .object [("kind", .string "OBJECT"), ("name", .string "Query"),
    ("fields", .array [slashedField deprecation, nextField])]

def slashed (deprecation : List (String × Json)) : Json := .object [("types", .array [slashedType deprecation])]

def outdated : List (String × Json) := [("isDeprecated", .bool true), ("deprecationReason", .string "x")]

theorem toSdl_slashed {dep : List (String × Json)} (h : dep ∈ [outdated, []]) : toSdl (slashed dep) =
    "type Query \x7b\n  \"d\\\"\n  a: Int" ++ Introspection.deprecation (slashedField dep) ++
      "\n  b: Int\n\x7d\n\n" := by
  have hwritten : writtenTypes (slashed dep) = [slashedType dep] := by
    rcases List.mem_pair.1 h with rfl | rfl <;> exact List.mergeSort_singleton _
  have hdescription : description margin (slashedField dep) = "  " ++ "\"" ++ "d\\" ++ "\"\n" := by
    refine description_quoted ?_ (by simp [String.contains_char_eq])
    rcases List.mem_pair.1 h with rfl | rfl <;> rfl
  have htype : typeDefinition (slashedType dep) = description "" (slashedType dep) ++ block
      ("type " ++ "Query" ++ interfaces (slashedType dep)) [fieldLine (slashedField dep), fieldLine nextField] := by
    rcases List.mem_pair.1 h with rfl | rfl <;> rfl
  rw [toSdl, hwritten, List.map_singleton, htype, fieldLine, hdescription]
  rcases List.mem_pair.1 h with rfl | rfl <;> decide +kernel

/-- The backslash escapes the quote after the description, so that the string ends at the first quote of the
reason, and the reason is read as a field. -/
theorem slashed_differs :
    Alike (slashed outdated) (slashed []) ∧
      Schema.parse (toSdl (slashed outdated)) ≠ Schema.parse (toSdl (slashed [])) := by
  constructor
  · have hfields : List.Forall₂ (AgreeBut deprecationKeys) [slashedField outdated, nextField]
        [slashedField [], nextField] :=
      .cons (agreeBut_object rfl) (.cons (fun _ _ => rfl) .nil)
    exact ⟨agreeBut_object rfl, .cons ⟨agreeBut_object rfl, hfields, .nil⟩ .nil⟩
  · rw [toSdl_slashed (by simp), toSdl_slashed (by simp)]
    decide +kernel

end Introspection

end TypedQuery
