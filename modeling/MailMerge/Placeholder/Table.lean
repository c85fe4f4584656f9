import MailMerge.Field.Format
import MailMerge.Field.Record

/-!
# Substitution tables

What stands in place of each name in one copy. **Structural** entries come from
aliases and win over **ordinary** entries of the same name, which come from the
shared context and the record.

* `Substitutions.lookup` is the value of a name;
* `Substitutions.ordered` lists the entries in the order in which bare names are
  tried;
* `Substitutions.resolve` builds the table of one record.
-/

namespace MailMerge

/-- An **alias**: a placeholder that takes the value of a field of another name, with
a date format of its own if it has one. -/
structure Alias where
  name : Text
  source : Text
  format : Option DateFormat
  deriving DecidableEq, Repr

/-- A **substitution table**: names and their rendered values. -/
structure Substitutions where
  structural : List (Text × Text)
  ordinary : List (Text × Text)
  deriving DecidableEq, Repr

namespace Substitutions

/-- The table without entries. -/
def empty : Substitutions := ⟨[], []⟩

/-- Sets a structural entry. -/
def setStructural (s : Substitutions) (name value : Text) : Substitutions :=
  { s with structural := upsert name value s.structural }

/-- Sets an ordinary entry. -/
def setOrdinary (s : Substitutions) (name value : Text) : Substitutions :=
  { s with ordinary := upsert name value s.ordinary }

/-- The value of a name, a structural entry first. -/
def lookup (s : Substitutions) (name : Text) : Option Text :=
  (s.structural ++ s.ordinary).lookup name

/-- The order of ordinary entries: longer names first, in bytes, and names of one
length in the order of their characters. -/
def nameOrder (a b : Text × Text) : Bool :=
  let m := Text.utf8Size a.1
  let n := Text.utf8Size b.1
  if m = n then Text.le a.1 b.1 else decide (n < m)

/-- All entries: the structural ones as they were declared, then the ordinary ones
that none of them hides, longest name first. -/
def ordered (s : Substitutions) : List (Text × Text) :=
  let visible := s.ordinary.filter fun e => (s.structural.lookup e.1).isNone
  s.structural ++ visible.mergeSort nameOrder

/-- The value of an alias: its source in the record or else in the shared context,
rendered in the format of the alias or else in that of the source. A source that
neither has is empty. -/
def aliasValue (rules : FormatRules) (record : Record) (shared : SharedContext) (a : Alias) :
    Text :=
  match record.get? a.source <|> shared.get? a.source with
  | some value => renderValue rules value (a.format <|> rules.dateFormat? a.source)
  | none => []

/-- The table of one record: the shared values, overridden by the fields of the
record save for reserved names, and the aliases before them. -/
def resolve (rules : FormatRules) (aliases : List Alias) (shared : SharedContext)
    (record : Record) : Substitutions :=
  let set (table : List (Text × Text)) (f : Text × FieldValue) :=
    upsert f.1 (renderField rules f.1 f.2) table
  let own := record.fields.filter fun f => !shared.shadows f.1
  { structural := aliases.map fun a => (a.name, aliasValue rules record shared a)
    ordinary := own.foldl set (shared.values.fields.foldl set []) }

end Substitutions

end MailMerge
