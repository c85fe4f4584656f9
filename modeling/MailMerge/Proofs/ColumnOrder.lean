import MailMerge.Proofs.ValuePrecedence

/-!
# The order of columns

The fields of a record stand in the order of the columns that it was read from, and so do the shared
values. Neither order shows in a copy. An alias and a name between delimiters are looked up, and a name
stands once in a record, so that it is found wherever it stands. Bare names are tried in an order of
their own, longest form first, and two names never share a form: which of two forms of one length is
tried first makes no difference, since only one of them can begin a place.

* `Record.SameFields` and `SharedContext.SameValues` say what may be reordered;
* `lookup_resolve_of_same` — the tables of reordered records give all names the same values;
* `render_of_sameFields` — the copies of reordered records are the same.
-/

namespace MailMerge

/-! ### The specification -/

/-- Whether two records **hold the same fields**: the same names with the same values, in any order. -/
def Record.SameFields (record record' : Record) : Prop := record.fields.Perm record'.fields

/-- Whether two shared contexts **hold the same values**, in any order, and reserve the same names. -/
structure SharedContext.SameValues (shared shared' : SharedContext) : Prop where
  values : shared.values.SameFields shared'.values
  reserved : ∀ name, name ∈ shared.reserved ↔ name ∈ shared'.reserved

variable {record record' : Record} {shared shared' : SharedContext}

/-! ### Reordered records -/

namespace Record.SameFields

theorem namesOnce (h : record.SameFields record') (hrecord : record.NamesOnce) :
    record'.NamesOnce :=
  (h.map Prod.fst).nodup_iff.1 hrecord

/-- A field is **found wherever it stands**. -/
theorem get?_eq (h : record.SameFields record') (hrecord : record.NamesOnce) (name : Text) :
    record.get? name = record'.get? name :=
  lookup_of_perm h hrecord name

end Record.SameFields

namespace SharedContext.SameValues

variable (h : shared.SameValues shared') (hshared : shared.values.NamesOnce)
include h hshared

theorem get?_eq (name : Text) : shared.get? name = shared'.get? name :=
  h.values.get?_eq hshared name

/-- A field gives way to the **same shared values**. -/
theorem shadows_eq (name : Text) : shared.shadows name = shared'.shadows name := by
  rw [Bool.eq_iff_iff, shadows_iff, shadows_iff, h.reserved, h.get?_eq hshared]

end SharedContext.SameValues

/-! ### Copies -/

/-- The tables of reordered records **give all names the same values**. -/
theorem lookup_resolve_of_same (rules : FormatRules) (aliases : List Alias)
    (hrecord : record.NamesOnce) (hshared : shared.values.NamesOnce)
    (hfields : record.SameFields record') (hvalues : shared.SameValues shared') (name : Text) :
    (Substitutions.resolve rules aliases shared record).lookup name =
      (Substitutions.resolve rules aliases shared' record').lookup name := by
  have halias : Substitutions.aliasValue rules record shared =
      Substitutions.aliasValue rules record' shared' := by
    funext a
    rw [aliasValue_eq, aliasValue_eq, hfields.get?_eq hrecord, hvalues.get?_eq hshared]
  rw [lookup_resolve rules aliases hshared hrecord,
    lookup_resolve rules aliases (hvalues.values.namesOnce hshared) (hfields.namesOnce hrecord),
    halias, hvalues.shadows_eq hshared, hfields.get?_eq hrecord, hvalues.get?_eq hshared]

/-- **The order of columns makes no difference.** Records with the same fields, in whatever order, and
shared contexts with the same values and the same reserved names have the same copies: for all
templates, conventions, aliases and rules of format. -/
theorem render_of_sameFields (r : Replicator) (hrecord : record.NamesOnce)
    (hshared : shared.values.NamesOnce) (hfields : record.SameFields record')
    (hvalues : shared.SameValues shared') : r.render shared record = r.render shared' record' :=
  substitute_congr (lookup_resolve_of_same r.rules r.aliases hrecord hshared hfields hvalues)
    r.convention r.template

/-- Bare names one of which is a part of another, an alias in front of them, and a reserved value that
the alias passes by. -/
theorem render_of_sameFields_bare :
    let r : Replicator :=
      ⟨"Ort &amp; Tag (Schuljahr dazu), Tag", .bare, [], [⟨"Schuljahr dazu", "Jahr", none⟩], .plain⟩
    let shared : SharedContext :=
      ⟨⟨[("Ort & Tag", .text "Ulm, 1. Mai"), ("Jahr", .text "2024")]⟩, ["Jahr", "Ort"]⟩
    let shared' : SharedContext := ⟨⟨shared.values.fields.reverse⟩, shared.reserved.reverse⟩
    let record : Record := ⟨[("Jahr", .text "1999"), ("Ort", .text "Köln"), ("Tag", .text "2. Mai")]⟩
    let record' : Record := ⟨record.fields.reverse⟩
    record.NamesOnce ∧ shared.values.NamesOnce ∧ record.SameFields record' ∧
      shared.SameValues shared' ∧
      r.render shared record = ("Ulm, 1. Mai (1999), 2. Mai" : Text) ∧
      r.render shared record = r.render shared' record' := by
  intro r shared shared' record record'
  have hrecord : record.NamesOnce := by
    change List.Nodup _
    decide
  have hshared : shared.values.NamesOnce := by
    change List.Nodup _
    decide
  have hfields : record.SameFields record' := (List.reverse_perm _).symm
  have hvalues : shared.SameValues shared' :=
    ⟨(List.reverse_perm _).symm, fun _ => List.mem_reverse.symm⟩
  refine ⟨hrecord, hshared, hfields, hvalues, ?_,
    render_of_sameFields r hrecord hshared hfields hvalues⟩
  -- the entries of the one table stand in the order in which they are tried, and so do their forms
  have hordered : (Substitutions.resolve r.rules r.aliases shared record).ordered =
      (Substitutions.resolve r.rules r.aliases shared record).structural ++
        (Substitutions.resolve r.rules r.aliases shared record).ordinary :=
    congrArg (_ ++ ·) (List.mergeSort_of_pairwise (by decide +kernel))
  have hforms : formsInOrder (Substitutions.resolve r.rules r.aliases shared record) =
      nameForms (Substitutions.resolve r.rules r.aliases shared record) := by
    refine List.mergeSort_of_pairwise ?_
    rw [nameForms, hordered]
    decide +kernel
  rw [Replicator.render, show r.convention = .bare from rfl, substitute_bare_of_data (by decide),
    hforms, nameForms, hordered]
  decide +kernel

end MailMerge
