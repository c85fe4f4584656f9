import MailMerge.CommandLine.Run
import MailMerge.Proofs.BareNames
import MailMerge.Proofs.Tables
import MailMerge.Replication

/-!
# Where a name takes its value from

The table of a record is made in three goes. The shared values are written first, the fields of the
record over them, and in front of both stand the aliases, which are asked first. A field whose name
is a reserved shared one is left out in the second go, so that only an alias can reach it.

`Precedence` says for each name where its value comes from, without any of this: with one rule for
each source and the conditions under which it counts. That a name has one value at most needs that
a record has each of its names once, and so has every record that is made.

* `Record.NamesOnce` says so of a record, and `Record.namesOnce_ofFields` and the lemmas behind it
  that it is true of all;
* `Precedence` is the order of the sources;
* `lookup_resolve` — what is found in the table of a record;
* `resolve_precedence` — the values are those that the order gives, and a field that it passes over
  makes no difference to any copy.
-/

namespace MailMerge

/-! ### The specification -/

/-- Whether a record has **each of its names once**. -/
def Record.NamesOnce (record : Record) : Prop := (record.fields.map Prod.fst).Nodup

/-- The **order of the sources** of a name, and its value by it.

* The first alias of the name comes first. Its value is that of its source, from the record or else
  from the shared context, in the format of the alias or else in that of the source; without either
  it is empty.
* The shared value of the name comes next, if it is reserved or the record has no field of the name.
* The field of the record comes last. -/
inductive Precedence (rules : FormatRules) (aliases : List Alias) (shared : SharedContext)
    (record : Record) (name : Text) : Option Text → Prop
  | aliasOfField {a : Alias} {value : FieldValue}
      (halias : aliases.find? (fun a => a.name = name) = some a)
      (hfield : record.get? a.source = some value) :
      Precedence rules aliases shared record name
        (some (renderValue rules value (a.format.or (rules.dateFormat? a.source))))
  | aliasOfShared {a : Alias} {value : FieldValue}
      (halias : aliases.find? (fun a => a.name = name) = some a)
      (hfield : record.get? a.source = none) (hshared : shared.get? a.source = some value) :
      Precedence rules aliases shared record name
        (some (renderValue rules value (a.format.or (rules.dateFormat? a.source))))
  | aliasOfNothing {a : Alias} (halias : aliases.find? (fun a => a.name = name) = some a)
      (hfield : record.get? a.source = none) (hshared : shared.get? a.source = none) :
      Precedence rules aliases shared record name (some [])
  | shared {value : FieldValue} (halias : ∀ a ∈ aliases, a.name ≠ name)
      (hshared : shared.get? name = some value)
      (hfirst : name ∈ shared.reserved ∨ record.get? name = none) :
      Precedence rules aliases shared record name
        (some (renderValue rules value (rules.dateFormat? name)))
  | field {value : FieldValue} (halias : ∀ a ∈ aliases, a.name ≠ name)
      (hfield : record.get? name = some value)
      (hfirst : name ∉ shared.reserved ∨ shared.get? name = none) :
      Precedence rules aliases shared record name
        (some (renderValue rules value (rules.dateFormat? name)))
  | absent (halias : ∀ a ∈ aliases, a.name ≠ name) (hshared : shared.get? name = none)
      (hfield : record.get? name = none) : Precedence rules aliases shared record name none

/-- Whether a field is **passed over**: its name is a reserved shared one, and no alias has it for
its source. -/
structure PassedOver (aliases : List Alias) (shared : SharedContext) (name : Text) : Prop where
  reserved : name ∈ shared.reserved
  isShared : (shared.get? name).isSome
  noSource : ∀ a ∈ aliases, a.source ≠ name

variable {rules : FormatRules} {aliases : List Alias} {shared : SharedContext}
  {record record' : Record} {name : Text} {value : Option Text}

/-! ### Records have each name once -/

theorem Record.namesOnce_empty : Record.empty.NamesOnce := List.nodup_nil

theorem Record.NamesOnce.insert (h : record.NamesOnce) (name : Text) (value : FieldValue) :
    (record.insert name value).NamesOnce :=
  nodup_names_upsert name value h

theorem Record.NamesOnce.foldl_insert {α : Type} (h : record.NamesOnce) (entries : List α)
    (key : α → Text) (value : α → FieldValue) :
    (entries.foldl (fun record e => record.insert (key e) (value e)) record).NamesOnce := by
  induction entries generalizing record with
  | nil => exact h
  | cons e entries ih => exact ih (h.insert _ _)

theorem Record.namesOnce_ofFields (fields : List (Text × Json)) : (ofFields fields).NamesOnce :=
  namesOnce_empty.foldl_insert fields Prod.fst fun f => .ofJson f.2

theorem Record.namesOnce_of_ofJson? {json : Json} (h : ofJson? json = some record) :
    record.NamesOnce := by
  obtain ⟨fields, -, rfl⟩ := Option.map_eq_some_iff.1 h
  exact namesOnce_ofFields fields

/-- The records that are **read from a list** have each of their names once. -/
theorem Record.namesOnce_of_listOfText? {t : Text} {records : List Record}
    (h : listOfText? t = some records) : ∀ record ∈ records, record.NamesOnce := by
  obtain ⟨items, -, hrecords⟩ := Option.bind_eq_some_iff.1 h
  clear h
  induction items generalizing records with
  | nil =>
    cases hrecords
    exact List.forall_mem_nil _
  | cons json items ih =>
    rw [List.mapM_cons] at hrecords
    obtain ⟨record, hrecord, hrest⟩ := Option.bind_eq_some_iff.1 hrecords
    obtain ⟨more, hmore, heq⟩ := Option.bind_eq_some_iff.1 hrest
    cases heq
    exact List.forall_mem_cons.2 ⟨namesOnce_of_ofJson? hrecord, ih hmore⟩

/-- So do the values that are **read and given** for all copies. -/
theorem namesOnce_sharedContext {t : Text} {values : Record} (h : Record.ofText? t = some values)
    (reserved : List Text) (given : List (Text × Text)) :
    (sharedContext reserved values given).values.NamesOnce := by
  obtain ⟨json, -, hjson⟩ := Option.bind_eq_some_iff.1 h
  exact (Record.namesOnce_of_ofJson? hjson).foldl_insert given Prod.fst fun pair => .text pair.2

/-! ### What is found in the table of a record -/

theorem SharedContext.shadows_iff :
    shared.shadows name = true ↔ name ∈ shared.reserved ∧ (shared.get? name).isSome := by
  rw [shadows, isReserved, Bool.and_eq_true, List.contains_iff_mem]

theorem aliasValue_eq (rules : FormatRules) (record : Record) (shared : SharedContext) (a : Alias) :
    Substitutions.aliasValue rules record shared a =
      ((record.get? a.source).or (shared.get? a.source)).elim [] fun value =>
        renderValue rules value (a.format.or (rules.dateFormat? a.source)) := by
  simp only [Substitutions.aliasValue, Option.orElse_eq_orElse, Option.orElse_eq_or]
  cases (record.get? a.source).or (shared.get? a.source) <;> rfl

/-- The **structural entries** are those of the aliases. -/
theorem lookup_structural (rules : FormatRules) (aliases : List Alias) (shared : SharedContext)
    (record : Record) (name : Text) :
    (Substitutions.resolve rules aliases shared record).structural.lookup name =
      (aliases.find? fun a => a.name = name).map
        (Substitutions.aliasValue rules record shared) := by
  unfold Substitutions.resolve
  dsimp only
  induction aliases with
  | nil => rfl
  | cons a aliases ih =>
    rw [List.map_cons, List.lookup_cons, List.find?_cons, ih]
    by_cases heq : name = a.name
    · rw [beq_iff_eq.2 heq, decide_eq_true heq.symm]
      rfl
    · rw [beq_eq_false_iff_ne.2 heq, decide_eq_false (Ne.symm heq)]

/-- The **ordinary entries** are those of the fields that are not shadowed, and then the shared
ones. -/
theorem lookup_ordinary (rules : FormatRules) (aliases : List Alias)
    (hshared : shared.values.NamesOnce) (hrecord : record.NamesOnce) (name : Text) :
    (Substitutions.resolve rules aliases shared record).ordinary.lookup name =
      ((if shared.shadows name then none else record.get? name).or (shared.get? name)).map
        (renderField rules name) := by
  have hown : ((record.fields.filter fun f => !shared.shadows f.1).map Prod.fst).Nodup :=
    hrecord.sublist (List.filter_sublist.map Prod.fst)
  unfold Substitutions.resolve
  dsimp only
  rw [lookup_foldl_upsert (fun f => renderField rules f.1 f.2) hown,
    lookup_foldl_upsert (fun f => renderField rules f.1 f.2) hshared,
    lookup_filter (fun name => !shared.shadows name), List.lookup_nil, Option.or_none,
    Option.map_or]
  cases shared.shadows name <;> rfl

/-- What is **found in the table** of a record: an alias, or a field that is not shadowed, or a
shared value. -/
theorem lookup_resolve (rules : FormatRules) (aliases : List Alias)
    (hshared : shared.values.NamesOnce) (hrecord : record.NamesOnce) (name : Text) :
    (Substitutions.resolve rules aliases shared record).lookup name =
      ((aliases.find? fun a => a.name = name).map
        (Substitutions.aliasValue rules record shared)).or
      (((if shared.shadows name then none else record.get? name).or (shared.get? name)).map
        (renderField rules name)) := by
  rw [Substitutions.lookup, List.lookup_append, lookup_structural,
    lookup_ordinary rules aliases hshared hrecord]

/-! ### The order of the sources -/

/-- The order **gives each name a value** or none. -/
theorem exists_precedence (rules : FormatRules) (aliases : List Alias) (shared : SharedContext)
    (record : Record) (name : Text) :
    ∃ value, Precedence rules aliases shared record name value := by
  cases halias : aliases.find? fun a => a.name = name with
  | some a =>
    cases hfield : record.get? a.source with
    | some value => exact ⟨_, .aliasOfField halias hfield⟩
    | none =>
      cases hshared : shared.get? a.source with
      | some value => exact ⟨_, .aliasOfShared halias hfield hshared⟩
      | none => exact ⟨_, .aliasOfNothing halias hfield hshared⟩
  | none =>
    have halias : ∀ a ∈ aliases, a.name ≠ name := by simpa using halias
    cases hshared : shared.get? name with
    | none =>
      cases hfield : record.get? name with
      | some value => exact ⟨_, .field halias hfield (.inr hshared)⟩
      | none => exact ⟨_, .absent halias hshared hfield⟩
    | some value =>
      cases hfield : record.get? name with
      | none => exact ⟨_, .shared halias hshared (.inr hfield)⟩
      | some own =>
        by_cases hreserved : name ∈ shared.reserved
        · exact ⟨_, .shared halias hshared (.inl hreserved)⟩
        · exact ⟨_, .field halias hfield (.inl hreserved)⟩

/-- What the order gives is **what is found in the table**. -/
theorem lookup_eq_of_precedence (hshared : shared.values.NamesOnce) (hrecord : record.NamesOnce)
    (h : Precedence rules aliases shared record name value) :
    (Substitutions.resolve rules aliases shared record).lookup name = value := by
  rw [lookup_resolve rules aliases hshared hrecord]
  have hnone (halias : ∀ a ∈ aliases, a.name ≠ name) :
      (aliases.find? fun a => a.name = name) = none := by simpa using halias
  cases h with
  | aliasOfField halias hfield =>
    rw [halias, Option.map_some, Option.some_or, aliasValue_eq, hfield]
    rfl
  | aliasOfShared halias hfield hvalue =>
    rw [halias, Option.map_some, Option.some_or, aliasValue_eq, hfield, hvalue]
    rfl
  | aliasOfNothing halias hfield hvalue =>
    rw [halias, Option.map_some, Option.some_or, aliasValue_eq, hfield, hvalue]
    rfl
  | shared halias hvalue hfirst =>
    -- a reserved field is left out, and otherwise there is none
    have hfield : (if shared.shadows name then none else record.get? name) = none := by
      rw [ite_eq_left_iff]
      intro hshadows
      refine hfirst.resolve_left fun hreserved => hshadows ?_
      exact SharedContext.shadows_iff.2 ⟨hreserved, by rw [hvalue]; rfl⟩
    rw [hnone halias, hfield, hvalue]
    rfl
  | field halias hvalue hfirst =>
    have hshadows : ¬ shared.shadows name = true := fun hshadows => by
      obtain ⟨hreserved, hsome⟩ := SharedContext.shadows_iff.1 hshadows
      rcases hfirst with hfirst | hfirst
      · exact hfirst hreserved
      · rw [hfirst] at hsome
        cases hsome
    rw [hnone halias, if_neg hshadows, hvalue]
    rfl
  | absent halias hvalue hfield =>
    rw [hnone halias, hfield, hvalue, ite_self]
    rfl

/-! ### Fields that are passed over -/

/-- Fields that are passed over **show in no value**. -/
theorem lookup_resolve_congr (rules : FormatRules) (hshared : shared.values.NamesOnce)
    (hrecord : record.NamesOnce) (hrecord' : record'.NamesOnce)
    (h : ∀ name, record'.get? name = record.get? name ∨ PassedOver aliases shared name)
    (name : Text) :
    (Substitutions.resolve rules aliases shared record').lookup name =
      (Substitutions.resolve rules aliases shared record).lookup name := by
  have halias : ∀ a ∈ aliases, Substitutions.aliasValue rules record' shared a =
      Substitutions.aliasValue rules record shared a := by
    intro a ha
    have hsource := (h a.source).resolve_right fun hover => hover.noSource a ha rfl
    rw [aliasValue_eq, aliasValue_eq, hsource]
  have hfield : (if shared.shadows name then none else record'.get? name) =
      if shared.shadows name then none else record.get? name := by
    rcases h name with hsame | hover
    · rw [hsame]
    · rw [if_pos (SharedContext.shadows_iff.2 ⟨hover.reserved, hover.isShared⟩),
        if_pos (SharedContext.shadows_iff.2 ⟨hover.reserved, hover.isShared⟩)]
  rw [lookup_resolve rules aliases hshared hrecord, lookup_resolve rules aliases hshared hrecord',
    hfield]
  cases hfound : aliases.find? fun a => a.name = name with
  | none => rfl
  | some a => rw [Option.map_some, Option.map_some, halias a (List.mem_of_find?_eq_some hfound)]

/-- **Where names take their values from.** The value of a name in the table of a record is the one
that the order of the sources gives. A field that this order passes over makes no difference to any
copy: with other values for such fields, or without them, a record is rendered as before. -/
theorem resolve_precedence (rules : FormatRules) (aliases : List Alias)
    (hshared : shared.values.NamesOnce) (hrecord : record.NamesOnce) :
    (∀ name value, (Substitutions.resolve rules aliases shared record).lookup name = value ↔
      Precedence rules aliases shared record name value) ∧
    ∀ record' : Record, record'.NamesOnce →
      (∀ name, record'.get? name = record.get? name ∨ PassedOver aliases shared name) →
      ∀ r : Replicator, r.rules = rules → r.aliases = aliases →
        r.render shared record' = r.render shared record := by
  constructor
  · intro name value
    refine ⟨?_, lookup_eq_of_precedence hshared hrecord⟩
    rintro rfl
    obtain ⟨value, h⟩ := exists_precedence rules aliases shared record name
    rwa [lookup_eq_of_precedence hshared hrecord h]
  · rintro record' hrecord' h r rfl rfl
    exact substitute_congr (lookup_resolve_congr r.rules hshared hrecord hrecord' h) _ _

/-- A reserved shared value **wins over the field** of its name, which makes no difference at all,
and a field over a shared value that is not reserved. -/
theorem resolve_precedence_reserved :
    let aliases : List Alias := [⟨"SL", "schulleitung", none⟩]
    let shared : SharedContext :=
      ⟨⟨[("schuljahr", .text "2024"), ("schulleitung", .text "Kern")]⟩, ["schuljahr"]⟩
    let record : Record := ⟨[("schuljahr", .text "1999"), ("schulleitung", .text "Ost")]⟩
    shared.values.NamesOnce ∧ record.NamesOnce ∧
      Precedence .plain aliases shared record "schuljahr" (some ("2024" : Text)) ∧
      Precedence .plain aliases shared record "schulleitung" (some ("Ost" : Text)) ∧
      Precedence .plain aliases shared record "SL" (some ("Ost" : Text)) ∧
      Precedence .plain aliases shared record "Klasse" none ∧
      ∀ r : Replicator, r.rules = .plain → r.aliases = aliases →
        r.render shared ⟨[("schulleitung", .text "Ost")]⟩ = r.render shared record := by
  intro aliases shared record
  have hshared : shared.values.NamesOnce := by
    change List.Nodup _
    decide
  have hrecord : record.NamesOnce := by
    change List.Nodup _
    decide
  obtain ⟨hvalues, hsame⟩ := resolve_precedence .plain aliases hshared hrecord
  refine ⟨hshared, hrecord, (hvalues _ _).1 ?_, (hvalues _ _).1 ?_, (hvalues _ _).1 ?_,
    (hvalues _ _).1 ?_, ?_⟩
  iterate 4 decide +kernel
  refine hsame ⟨[("schulleitung", .text "Ost")]⟩ (List.nodup_singleton _) fun name => ?_
  by_cases hname : name = ("schuljahr" : Text)
  · subst hname
    exact .inr ⟨by decide, by decide, by decide⟩
  · left
    change _ = List.lookup name (("schuljahr", _) :: [("schulleitung", _)])
    rw [List.lookup_cons, beq_false_of_ne hname]
    rfl

end MailMerge
