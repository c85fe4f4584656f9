import MailMerge.Number.Decimal

/-!
# TOML documents

A configuration file is a tree of tables. Tables come about in several ways, and the way
decides what may be added to a table later.

* `Toml` is the type of values and tables;
* `Toml.descend` changes the table at the end of a path;
* `Toml.openTable`, `Toml.openRow` and `Toml.define` are the three kinds of lines of a
  document.
-/

namespace MailMerge

/-- How a **table came about**: by a line of its own, on the way to another table, by a
key with dots, or written as a value. -/
inductive TableOrigin where
  | header
  | implied
  | dotted
  | inline
  deriving DecidableEq, Repr

/-- A **value or table** of a document. The rows of a list of tables are tables with lines
of their own. -/
inductive Toml where
  | text (value : Text)
  | integer (value : Int)
  | float (value : Binary64)
  | boolean (value : Bool)
  | moment (value : Text)
  | array (items : List Toml)
  | table (origin : TableOrigin) (entries : List (Text × Toml))
  | rows (tables : List (List (Text × Toml)))
  deriving Inhabited

/-- The **entries** of a table. -/
abbrev TomlEntries := List (Text × Toml)

namespace Toml

/-- Whether a key with dots may lead through a table. -/
def isOpenToDots : TableOrigin → Bool
  | .implied | .dotted => true
  | .header | .inline => false

/-- Whether the line of a table may lead through another. -/
def isOpenToHeaders : TableOrigin → Bool
  | .inline => false
  | .header | .implied | .dotted => true

/-- Changes the table at the end of a path. Tables that are missing on the way are made;
of a list of tables the last one is taken. -/
def descend (dotted : Bool) (f : TableOrigin → TomlEntries → Option TomlEntries) :
    List Text → TableOrigin → TomlEntries → Option TomlEntries
  | [], origin, entries => f origin entries
  | key :: path, _, entries => do
    match entries.lookup key with
    | none =>
      let made : TableOrigin := if dotted then .dotted else .implied
      let inner ← descend dotted f path made []
      return entries ++ [(key, .table made inner)]
    | some (.table origin inner) =>
      guard (if dotted then isOpenToDots origin else isOpenToHeaders origin)
      let inner ← descend dotted f path origin inner
      return upsert key (.table origin inner) entries
    | some (.rows tables) =>
      let last ← tables.getLast?
      let inner ← descend dotted f path .header last
      return upsert key (.rows (tables.dropLast ++ [inner])) entries
    | some _ => none

/-- The line that opens a table. A table may have one such line. -/
def openTable (path : List Text) (root : TomlEntries) : Option TomlEntries := do
  let key ← path.getLast?
  descend false (fun _ entries =>
    match entries.lookup key with
    | none => some (entries ++ [(key, .table .header [])])
    | some (.table .implied inner) => some (upsert key (.table .header inner) entries)
    | some _ => none) path.dropLast .header root

/-- The line that opens the next row of a list of tables. -/
def openRow (path : List Text) (root : TomlEntries) : Option TomlEntries := do
  let key ← path.getLast?
  descend false (fun _ entries =>
    match entries.lookup key with
    | none => some (entries ++ [(key, .rows [[]])])
    | some (.rows tables) => some (upsert key (.rows (tables ++ [[]])) entries)
    | some _ => none) path.dropLast .header root

/-- Adds a key, which may have dots, to a table. A key has one value, and dots do not
lead into tables with lines of their own. -/
def addKey (path : List Text) (value : Toml) (origin : TableOrigin) (entries : TomlEntries) :
    Option TomlEntries := do
  let key ← path.getLast?
  let way := path.dropLast
  descend true (fun reached inner => do
    guard (way.isEmpty || reached == .dotted)
    match inner.lookup key with
    | none => return inner ++ [(key, value)]
    | some _ => none) way origin entries

/-- The line that gives a key a value, in the table that was opened last. -/
def define (opened path : List Text) (value : Toml) (root : TomlEntries) : Option TomlEntries :=
  descend false (addKey path value) opened .header root

/-- The table that is written as a value. -/
def inlineTable (pairs : List (List Text × Toml)) : Option Toml :=
  (pairs.foldlM (fun entries p => addKey p.1 p.2 .inline entries) []).map (.table .inline)

end Toml

end MailMerge
