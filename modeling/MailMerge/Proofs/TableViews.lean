import MailMerge.Proofs.InsertionOrder
import MailMerge.Proofs.TableOrder

/-!
# The two views of a substitution table

A name between delimiters is looked up in the table of a copy, and bare names are tried one after
another in the order of the table. Both give a name the same value, for the order begins with all
structural entries, as the lookup does, and leaves out the ordinary entries that they hide.

What stands in the order is told by what a table was built from: the aliases of a record or nothing, and
then any number of entries that are set one after another.

* `TableSource` and `TableStep` say how tables come about;
* `isFilledWith_structural` and `isFilledWith_ordinary` — what a table holds in the end;
* `Substitutions.exists_ordered` — the entries in order, for any table that has its ordinary names once;
* `table_views_agree` — the lookup and the order agree, and what the order is.
-/

namespace MailMerge

/-! ### The specification -/

/-- What a table **begins with**: nothing, or the values of a record. -/
inductive TableSource where
  | nothing
  | ofRecord (rules : FormatRules) (aliases : List Alias) (shared : SharedContext) (record : Record)

namespace TableSource

/-- The table of a source. -/
def table : TableSource → Substitutions
  | nothing => .empty
  | ofRecord rules aliases shared record => .resolve rules aliases shared record

/-- The structural entries that a source declares, in their order: those of the aliases. -/
def declared : TableSource → List (Text × Text)
  | nothing => []
  | ofRecord rules aliases shared record =>
    aliases.map fun a => (a.name, Substitutions.aliasValue rules record shared a)

/-- The names that a source gives an ordinary value: those of the shared values and of the record. -/
def ordinaryNames : TableSource → List Text
  | nothing => []
  | ofRecord _ _ shared record => shared.values.fields.map Prod.fst ++ record.fields.map Prod.fst

end TableSource

/-- A **step** that builds a table: an entry of either kind is set. -/
inductive TableStep where
  | structural (name value : Text)
  | ordinary (name value : Text)

namespace TableStep

/-- The structural entry that a step sets, if it sets one. -/
def structural? : TableStep → Option (Text × Text)
  | structural name value => some (name, value)
  | ordinary _ _ => none

/-- The ordinary entry that a step sets, if it sets one. -/
def ordinary? : TableStep → Option (Text × Text)
  | structural _ _ => none
  | ordinary name value => some (name, value)

end TableStep

namespace Substitutions

/-- The table after a step. -/
def apply (s : Substitutions) : TableStep → Substitutions
  | .structural name value => s.setStructural name value
  | .ordinary name value => s.setOrdinary name value

/-- Whether a name is **tried before** another: it is longer, in bytes, or as long and smaller. -/
def TriedBefore (a b : Text) : Prop :=
  Text.utf8Size b < Text.utf8Size a ∨ (Text.utf8Size a = Text.utf8Size b ∧ a < b)

end Substitutions

/-! ### Names in order -/

/-- The order of names is that of their **characters, one after another**. -/
theorem Text.lt_of_le_of_ne {s t : Text} (h : Text.le s t = true) (hne : s ≠ t) : s < t := by
  induction s generalizing t with
  | nil =>
    cases t with
    | nil => exact absurd rfl hne
    | cons b t => exact List.nil_lt_cons b t
  | cons a s ih =>
    cases t with
    | nil => cases h
    | cons b t =>
      rw [Text.le] at h
      rw [List.cons_lt_cons_iff]
      by_cases hab : a = b
      · subst hab
        rw [if_pos rfl] at h
        have hrest : s ≠ t := by
          rintro rfl
          exact hne rfl
        exact .inr ⟨rfl, ih h hrest⟩
      · rw [if_neg hab, decide_eq_true_eq] at h
        exact .inl h

namespace Substitutions

theorem triedBefore_of_nameOrder {a b : Text × Text} (h : nameOrder a b = true) (hne : a.1 ≠ b.1) :
    TriedBefore a.1 b.1 := by
  unfold nameOrder at h
  dsimp only at h
  split at h
  case isTrue hsize => exact .inr ⟨hsize, Text.lt_of_le_of_ne h hne⟩
  case isFalse => exact .inl (of_decide_eq_true h)

/-- No name is tried before itself. -/
theorem not_triedBefore_self (a : Text) : ¬ TriedBefore a a := by
  rintro (hsize | ⟨-, hlt⟩)
  · exact Nat.lt_irrefl _ hsize
  · exact List.lt_irrefl a hlt

variable {s : Substitutions}

/-- **The entries in order**: the structural ones as they stand, and then the ordinary ones of other
names, in the order in which they are tried. -/
theorem exists_ordered (h : (s.ordinary.map Prod.fst).Nodup) :
    ∃ rest, s.ordered = s.structural ++ rest ∧
      (∀ name, name ∈ rest.map Prod.fst ↔
        name ∈ s.ordinary.map Prod.fst ∧ name ∉ s.structural.map Prod.fst) ∧
      (rest.map Prod.fst).Pairwise TriedBefore := by
  let visible := s.ordinary.filter fun e => (s.structural.lookup e.1).isNone
  have hperm : (visible.mergeSort nameOrder).Perm visible := List.mergeSort_perm visible nameOrder
  refine ⟨visible.mergeSort nameOrder, rfl, ?_, ?_⟩
  · intro name
    rw [(hperm.map Prod.fst).mem_iff, List.mem_map, List.mem_map]
    constructor
    · rintro ⟨e, he, rfl⟩
      obtain ⟨hmem, hhidden⟩ := List.mem_filter.1 he
      exact ⟨⟨e, hmem, rfl⟩, lookup_eq_none_iff_not_mem.1 (Option.isNone_iff_eq_none.1 hhidden)⟩
    · rintro ⟨⟨e, hmem, rfl⟩, hother⟩
      have hnone := lookup_eq_none_iff_not_mem.2 hother
      exact ⟨e, List.mem_filter.2 ⟨hmem, Option.isNone_iff_eq_none.2 hnone⟩, rfl⟩
  · -- the entries are sorted, and no two of them have one name
    have hsorted : (visible.mergeSort nameOrder).Pairwise fun a b => nameOrder a b = true :=
      List.pairwise_mergeSort nameOrder_trans nameOrder_total visible
    have hvisible : (visible.map Prod.fst).Nodup := h.sublist (List.filter_sublist.map Prod.fst)
    have hdistinct : ((visible.mergeSort nameOrder).map Prod.fst).Nodup :=
      (hperm.map Prod.fst).nodup_iff.2 hvisible
    rw [List.pairwise_map]
    apply (hsorted.and (List.pairwise_map.1 hdistinct)).imp
    rintro a b ⟨horder, hne⟩
    exact triedBefore_of_nameOrder horder hne

end Substitutions

/-! ### Tables that are built -/

/-- Steps **fill the structural entries** with those that they set, and leave the others to themselves. -/
theorem structural_foldl_apply (steps : List TableStep) (s : Substitutions) :
    (steps.foldl Substitutions.apply s).structural =
      (steps.filterMap TableStep.structural?).foldl (fun table e => upsert e.1 e.2 table)
        s.structural := by
  induction steps generalizing s with
  | nil => rfl
  | cons step steps ih =>
    rw [List.foldl_cons, ih]
    cases step with
    | structural name value => rfl
    | ordinary name value => rfl

theorem ordinary_foldl_apply (steps : List TableStep) (s : Substitutions) :
    (steps.foldl Substitutions.apply s).ordinary =
      (steps.filterMap TableStep.ordinary?).foldl (fun table e => upsert e.1 e.2 table) s.ordinary := by
  induction steps generalizing s with
  | nil => rfl
  | cons step steps ih =>
    rw [List.foldl_cons, ih]
    cases step with
    | structural name value => rfl
    | ordinary name value => rfl

/-- The structural entries of a table that was built are **those of its source, filled with those of the
steps**. -/
theorem isFilledWith_structural (source : TableSource) (steps : List TableStep) :
    IsFilledWith source.declared (steps.filterMap TableStep.structural?)
      (steps.foldl Substitutions.apply source.table).structural := by
  have hsource : source.table.structural = source.declared := by
    cases source with
    | nothing => rfl
    | ofRecord rules aliases shared record => rfl
  have hfold := (IsFilledWith.refl source.declared).foldl_upsert
    (steps.filterMap TableStep.structural?) Prod.fst Prod.snd
  rw [List.nil_append, List.map_id'] at hfold
  rw [structural_foldl_apply, hsource]
  exact hfold

/-- The ordinary names of a source are those that **stand in its table**. -/
theorem isFilledWith_ordinary (source : TableSource) :
    ∃ given, IsFilledWith [] given source.table.ordinary ∧
      ∀ name, name ∈ given.map Prod.fst ↔ name ∈ source.ordinaryNames := by
  cases source with
  | nothing => exact ⟨[], .refl [], fun _ => Iff.rfl⟩
  | ofRecord rules aliases shared record =>
    let render (f : Text × FieldValue) := renderField rules f.1 f.2
    let own := record.fields.filter fun f => !shared.shadows f.1
    have hshared := (IsFilledWith.refl []).foldl_upsert shared.values.fields Prod.fst render
    refine ⟨_, hshared.foldl_upsert own Prod.fst render, fun name => ?_⟩
    rw [List.nil_append, List.map_append, List.map_map, List.map_map]
    show name ∈ shared.values.fields.map Prod.fst ++ own.map Prod.fst ↔
      name ∈ shared.values.fields.map Prod.fst ++ record.fields.map Prod.fst
    rw [List.mem_append, List.mem_append]
    constructor
    · rintro (h | h)
      · exact .inl h
      · exact .inr ((List.filter_sublist.map Prod.fst).subset h)
    · rintro (h | h)
      · exact .inl h
      · -- a field that is left out has the name of a shared value
        obtain ⟨f, hf, rfl⟩ := List.mem_map.1 h
        cases hshadows : shared.shadows f.1 with
        | true =>
          left
          by_contra hnot
          have hsome := (SharedContext.shadows_iff.1 hshadows).2
          rw [SharedContext.get?, Record.get?, lookup_eq_none_iff_not_mem.2 hnot] at hsome
          cases hsome
        | false => exact .inr (List.mem_map.2 ⟨f, List.mem_filter.2 ⟨hf, by rw [hshadows]; rfl⟩, rfl⟩)

/-! ### The two views -/

/-- **The two views of a table agree.** Whatever a table was built from, a name has the value of the
first entry of that name in the order, and none in either view if there is no such entry. The order
begins with the structural entries, as they were declared; behind them stand the ordinary names that are
not among these, each once, longer ones first and names of one length by their characters. -/
theorem table_views_agree (source : TableSource) (steps : List TableStep) :
    let s := steps.foldl Substitutions.apply source.table
    (∀ name, s.lookup name = (s.ordered.find? fun entry => entry.1 = name).map Prod.snd) ∧
    IsFilledWith source.declared (steps.filterMap TableStep.structural?) s.structural ∧
    ∃ rest, s.ordered = s.structural ++ rest ∧
      (∀ name, name ∈ rest.map Prod.fst ↔
        (name ∈ source.ordinaryNames ∨
          name ∈ (steps.filterMap TableStep.ordinary?).map Prod.fst) ∧
        name ∉ s.structural.map Prod.fst) ∧
      (rest.map Prod.fst).Nodup ∧ (rest.map Prod.fst).Pairwise Substitutions.TriedBefore := by
  intro s
  refine ⟨?_, isFilledWith_structural source steps, ?_⟩
  · intro name
    rw [← Substitutions.lookup_ordered, Substitutions.lookup_eq_find?]
    congr 2
    funext entry
    rw [Bool.eq_iff_iff, beq_iff_eq, decide_eq_true_eq]
    exact eq_comm
  · obtain ⟨given, hgiven, hnames⟩ := isFilledWith_ordinary source
    -- the steps go on filling the table that the source has filled
    have hfilled := hgiven.foldl_upsert (steps.filterMap TableStep.ordinary?) Prod.fst Prod.snd
    rw [List.map_id', ← ordinary_foldl_apply] at hfilled
    obtain ⟨rest, hordered, hrest, htried⟩ :=
      Substitutions.exists_ordered (s := s) hfilled.appearInTurn.nodup
    refine ⟨rest, hordered, ?_, ?_, htried⟩
    · intro name
      rw [hrest, hfilled.appearInTurn.mem_iff, List.map_append, List.mem_append, hnames]
    · apply htried.imp
      rintro a b hlt rfl
      exact Substitutions.not_triedBefore_self a hlt

end MailMerge
