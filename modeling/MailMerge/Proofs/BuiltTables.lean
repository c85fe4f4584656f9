import Mathlib.Data.Option.Basic
import MailMerge.Proofs.Tables
import MailMerge.Proofs.WrittenLines

/-!
# Documents build their tables

The lines of a document change the table that was opened last. As long as the keys of a table differ, each
line puts its entry behind those that are there, so that a table holds in the end what its lines say, in
their order.

* `LeadsTo` says that a path leads to a table with a line of its own, and where the entries of this table
  stand in the root; `LeadsTo.table` and `LeadsTo.row` go one step further;
* `Builds` says what lines make of a root, and `Builds.append` that lines may follow each other;
* `builds_table` — the lines of a table build it;
* `builds_rows` — the lines of the rows of a list of tables build the list;
* `Toml.ofText?_of_builds` — a document is read as what its lines build.
-/

namespace MailMerge

namespace Toml

variable {path rest : List Text} {key : Text} {value : Toml} {entries before : TomlEntries}
  {place inner : TomlEntries → TomlEntries} {rows : List TomlEntries}
  {f : TableOrigin → TomlEntries → Option TomlEntries}

/-! ### Paths to tables -/

/-- Whether a path **leads to a table** with a line of its own, the entries of which have their place in the
root: what changes these entries changes the root in that place. -/
def LeadsTo (path : List Text) (place : TomlEntries → TomlEntries) : Prop :=
  ∀ f entries, descend false f path .header (place entries) = (f .header entries).map place

theorem leadsTo_nil : LeadsTo [] id := by
  intro f entries
  show f .header entries = (f .header entries).map id
  rw [Option.map_id_fun, id]

/-- A path is followed **one part after the other**. -/
theorem descend_append (dotted : Bool) (f : TableOrigin → TomlEntries → Option TomlEntries)
    (path rest : List Text) (origin : TableOrigin) (entries : TomlEntries) :
    descend dotted f (path ++ rest) origin entries =
      descend dotted (descend dotted f rest) path origin entries := by
  induction path generalizing origin entries with
  | nil => rfl
  | cons key path ih =>
    rw [List.cons_append, descend, descend]
    cases entries.lookup key with
    | none =>
      dsimp only
      rw [ih]
    | some value =>
      cases value with
      | table reached inner =>
        dsimp only
        rw [ih]
      | rows tables => simp only [ih]
      -- no other value holds a table
      | text => rfl
      | integer => rfl
      | float => rfl
      | boolean => rfl
      | moment => rfl
      | array => rfl

/-- Behind a path to a table, a path from there **leads on**. -/
theorem LeadsTo.append (h : LeadsTo path place) (hrest : LeadsTo rest inner) :
    LeadsTo (path ++ rest) (place ∘ inner) := by
  intro f entries
  rw [descend_append]
  refine (h (descend false f rest) (inner entries)).trans ?_
  rw [hrest, Option.map_map]

theorem lookup_last (h : key ∉ before.map Prod.fst) (value : Toml) :
    (before ++ [(key, value)]).lookup key = some value := by
  rw [List.lookup_append, lookup_eq_none_of_not_mem h, Option.none_or, List.lookup_cons,
    beq_self_eq_true]

theorem upsert_last (h : key ∉ before.map Prod.fst) (value new : Toml) :
    upsert key new (before ++ [(key, value)]) = before ++ [(key, new)] := by
  rw [upsert_append_of_not_mem h, upsert, if_pos rfl]

/-- The name of the **last table** leads to it. -/
theorem leadsTo_table (h : key ∉ before.map Prod.fst) :
    LeadsTo [key] fun inner => before ++ [(key, .table .header inner)] := by
  intro f entries
  rw [descend, lookup_last h]
  show (f .header entries).bind
      (fun inner => some (upsert key (.table .header inner) (before ++ [(key, .table .header entries)]))) = _
  cases f .header entries with
  | none => rfl
  | some changed => exact congrArg some (upsert_last h _ _)

/-- The name of the last list of tables leads to its **last row**. -/
theorem leadsTo_row (h : key ∉ before.map Prod.fst) (rows : List TomlEntries) :
    LeadsTo [key] fun row => before ++ [(key, .rows (rows ++ [row]))] := by
  intro f entries
  rw [descend, lookup_last h]
  simp only [descend, List.getLast?_concat, List.dropLast_concat, Option.bind_eq_bind, Option.bind_some]
  cases f .header entries with
  | none => rfl
  | some changed => exact congrArg some (upsert_last h _ _)

/-! ### Lines -/

theorem openTable_last (h : LeadsTo path place) (hkey : key ∉ entries.map Prod.fst) :
    openTable (path ++ [key]) (place entries) = some (place (entries ++ [(key, .table .header [])])) := by
  rw [openTable, List.getLast?_concat, List.dropLast_concat]
  refine (h _ entries).trans ?_
  rw [lookup_eq_none_of_not_mem hkey]
  rfl

theorem openRow_first (h : LeadsTo path place) (hkey : key ∉ entries.map Prod.fst) :
    openRow (path ++ [key]) (place entries) = some (place (entries ++ [(key, .rows [[]])])) := by
  rw [openRow, List.getLast?_concat, List.dropLast_concat]
  refine (h _ entries).trans ?_
  rw [lookup_eq_none_of_not_mem hkey]
  rfl

theorem openRow_next (h : LeadsTo path place) (hkey : key ∉ entries.map Prod.fst)
    (rows : List TomlEntries) :
    openRow (path ++ [key]) (place (entries ++ [(key, .rows rows)])) =
      some (place (entries ++ [(key, .rows (rows ++ [[]]))])) := by
  rw [openRow, List.getLast?_concat, List.dropLast_concat]
  refine (h _ (entries ++ [(key, .rows rows)])).trans ?_
  rw [lookup_last hkey]
  exact congrArg (fun changed => some (place changed)) (upsert_last hkey _ _)

/-- A key that is new in the table that was opened **goes behind the others**. -/
theorem define_last (h : LeadsTo path place) (hkey : key ∉ entries.map Prod.fst) (value : Toml) :
    define path [key] value (place entries) = some (place (entries ++ [(key, value)])) := by
  rw [define]
  refine (h _ entries).trans ?_
  have hadd : addKey [key] value .header entries = some (entries ++ [(key, value)]) := by
    simp [addKey, descend, lookup_eq_none_of_not_mem hkey]
  rw [hadd]
  rfl

end Toml

namespace TomlReader

open Toml

variable {path : List Text} {key : Text} {entries entries' root root' root'' : TomlEntries}
  {place : TomlEntries → TomlEntries} {rows : List TomlEntries} {ls ms : List Line}

/-! ### What lines build -/

/-- Whether some lines **make another root** of a root, whatever table was opened before them. -/
def Builds (ls : List Line) (root root' : TomlEntries) : Prop :=
  ∀ opened, ∃ opened', ls.foldlM Building.add? ⟨opened, root⟩ = some ⟨opened', root'⟩

theorem builds_nil (root : TomlEntries) : Builds [] root root := fun opened => ⟨opened, rfl⟩

/-- Lines may **follow each other**. -/
theorem Builds.append (h : Builds ls root root') (h' : Builds ms root' root'') :
    Builds (ls ++ ms) root root'' := by
  intro opened
  obtain ⟨between, hls⟩ := h opened
  obtain ⟨opened', hms⟩ := h' between
  refine ⟨opened', ?_⟩
  rw [List.foldlM_append, hls]
  exact hms

/-- The lines of the **entries of a table**. -/
def pairLines (entries : TomlEntries) : List Line := entries.map fun entry => .pair [entry.1] entry.2

/-- The lines of a table: the one that opens it, and those of its entries. -/
def tableLines (path : List Text) (entries : TomlEntries) : List Line := .table path :: pairLines entries

/-- The lines of a row. -/
def rowLines (path : List Text) (entries : TomlEntries) : List Line := .row path :: pairLines entries

/-- The lines of entries put them **behind those that are there**. -/
theorem foldlM_pairLines (h : LeadsTo path place)
    (hkeys : ((entries ++ entries').map Prod.fst).Nodup) :
    (pairLines entries').foldlM Building.add? ⟨path, place entries⟩ =
      some ⟨path, place (entries ++ entries')⟩ := by
  -- with each line an entry moves from those to come to those that are there
  induction entries' generalizing entries with
  | nil => rw [List.append_nil]; rfl
  | cons entry entries' ih =>
    obtain ⟨key, value⟩ := entry
    have hnew : key ∉ entries.map Prod.fst := by
      intro hmem
      rw [List.map_append] at hkeys
      exact (List.nodup_append.1 hkeys).2.2 _ hmem _ (List.mem_cons_self ..) rfl
    have hsplit : entries ++ (key, value) :: entries' = (entries ++ [(key, value)]) ++ entries' := by
      rw [List.append_assoc]
      rfl
    rw [hsplit] at hkeys ⊢
    have hline : Building.add? ⟨path, place entries⟩ (.pair [key] value) =
        some ⟨path, place (entries ++ [(key, value)])⟩ := by
      rw [Building.add?, define_last h hnew]
      rfl
    show (Building.add? ⟨path, place entries⟩ (.pair [key] value)).bind _ = _
    rw [hline]
    exact ih hkeys

/-- The lines of a table **build it** behind what is there. -/
theorem builds_table (h : LeadsTo path place) (hkey : key ∉ entries.map Prod.fst)
    (hkeys : (entries'.map Prod.fst).Nodup) :
    Builds (tableLines (path ++ [key]) entries') (place entries)
      (place (entries ++ [(key, .table .header entries')])) := by
  intro opened
  refine ⟨path ++ [key], ?_⟩
  have hopen : Building.add? ⟨opened, place entries⟩ (.table (path ++ [key])) =
      some ⟨path ++ [key], place (entries ++ [(key, .table .header [])])⟩ := by
    rw [Building.add?, openTable_last h hkey]
    rfl
  show (Building.add? ⟨opened, place entries⟩ (.table (path ++ [key]))).bind _ = _
  rw [hopen]
  exact foldlM_pairLines (h.append (leadsTo_table hkey)) hkeys

/-- The lines of a row **build it** behind the rows that are there. -/
theorem foldlM_rowLines {opened : List Text} {start : TomlEntries} (h : LeadsTo path place)
    (hkey : key ∉ entries.map Prod.fst) (hkeys : (entries'.map Prod.fst).Nodup)
    (hopen : openRow (path ++ [key]) (place start) =
      some (place (entries ++ [(key, .rows (rows ++ [[]]))]))) :
    (rowLines (path ++ [key]) entries').foldlM Building.add? ⟨opened, place start⟩ =
      some ⟨path ++ [key], place (entries ++ [(key, .rows (rows ++ [entries']))])⟩ := by
  have hline : Building.add? ⟨opened, place start⟩ (.row (path ++ [key])) =
      some ⟨path ++ [key], place (entries ++ [(key, .rows (rows ++ [[]]))])⟩ := by
    rw [Building.add?, hopen]
    rfl
  show (Building.add? ⟨opened, place start⟩ (.row (path ++ [key]))).bind _ = _
  rw [hline]
  exact foldlM_pairLines (h.append (leadsTo_row hkey rows)) hkeys

theorem builds_moreRows {more : List TomlEntries} (h : LeadsTo path place)
    (hkey : key ∉ entries.map Prod.fst) (hkeys : ∀ row ∈ more, (row.map Prod.fst).Nodup) :
    Builds (more.flatMap (rowLines (path ++ [key]))) (place (entries ++ [(key, .rows rows)]))
      (place (entries ++ [(key, .rows (rows ++ more))])) := by
  induction more generalizing rows with
  | nil =>
    rw [List.append_nil]
    exact builds_nil _
  | cons row more ih =>
    obtain ⟨hrow, hmore⟩ := List.forall_mem_cons.1 hkeys
    have hsplit : rows ++ row :: more = rows ++ [row] ++ more := by
      rw [List.append_assoc]
      rfl
    rw [List.flatMap_cons, hsplit]
    refine Builds.append ?_ (ih hmore)
    intro opened
    exact ⟨_, foldlM_rowLines h hkey hrow (openRow_next h hkey rows)⟩

/-- The lines of **the rows of a list** build it. Without rows there is no list. -/
theorem builds_rows {row : TomlEntries} {more : List TomlEntries} (h : LeadsTo path place)
    (hkey : key ∉ entries.map Prod.fst) (hkeys : ∀ other ∈ row :: more, (other.map Prod.fst).Nodup) :
    Builds ((row :: more).flatMap (rowLines (path ++ [key]))) (place entries)
      (place (entries ++ [(key, .rows (row :: more))])) := by
  obtain ⟨hrow, hmore⟩ := List.forall_mem_cons.1 hkeys
  have hrest : Builds (more.flatMap (rowLines (path ++ [key])))
      (place (entries ++ [(key, .rows [row])])) (place (entries ++ [(key, .rows ([row] ++ more))])) :=
    builds_moreRows h hkey hmore
  refine Builds.append ?_ hrest
  intro opened
  have hfirst : (rowLines (path ++ [key]) row).foldlM Building.add? ⟨opened, place entries⟩ =
      some ⟨path ++ [key], place (entries ++ [(key, .rows ([] ++ [row]))])⟩ :=
    foldlM_rowLines h hkey hrow (openRow_first h hkey)
  exact ⟨_, hfirst⟩

end TomlReader

/-! ### Documents -/

/-- A document is read as **what its lines build**. -/
theorem Toml.ofText?_of_builds {u : Text} {ls : List TomlReader.Line} {root : TomlEntries}
    (hmark : u.head? ≠ some '\ufeff') (hlines : TomlReader.SpellsLines u ls)
    (hbuilds : TomlReader.Builds ls [] root) : Toml.ofText? u = some root := by
  have hdrop : TomlReader.dropMark u = u := by
    unfold TomlReader.dropMark
    split
    case h_1 => exact absurd rfl hmark
    case h_2 => rfl
  obtain ⟨opened, hroot⟩ := hbuilds []
  rw [Toml.ofText?, hdrop, hlines.lines?_eq]
  simp only [Option.bind_eq_bind, Option.bind_some, hroot]
  rfl

end MailMerge
