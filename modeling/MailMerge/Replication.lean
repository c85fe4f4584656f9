import MailMerge.Placeholder.Repair
import MailMerge.Placeholder.Substitute
import MailMerge.Region.Location

/-!
# Replication

The template of a region is filled in once for each record, and the copies are put
one after the other with a break between each two.

* `BreakKind.markup` is the markup of a break;
* `Replicator` is a template prepared for copying;
* `Replicator.render` is one copy, and `Replicator.copies` all of them.
-/

namespace MailMerge

/-- What stands **between two copies**. -/
inductive BreakKind where
  | page
  | section
  | none
  deriving DecidableEq, Repr

namespace BreakKind

/-- The name of a kind of break. -/
def name : BreakKind → Text
  | .page => "page"
  | .section => "section"
  | .none => "none"

/-- The kind of break of a name. -/
def ofName? (t : Text) : Option BreakKind :=
  if t = "page" then some .page
  else if t = "section" then some .section
  else if t = "none" then some .none
  else Option.none

/-- The run that breaks a page. -/
def pageBreakRun : Text := "<w:r><w:br w:type=\"page\"/></w:r>"

/-- The paragraph that breaks a page. -/
def pageBreakParagraph : Text := "<w:p>" ++ pageBreakRun ++ "</w:p>"

/-- The **markup of a break** in a context. A section break repeats the section
properties of the body; without these, or inside a paragraph, it is a page break. -/
def markup (kind : BreakKind) (context : BreakContext) (sectionProperties : Text) : Text :=
  let properties := Text.trim sectionProperties
  match kind, context with
  | .none, _ => []
  | _, .inline => pageBreakRun
  | .page, .block => pageBreakParagraph
  | .section, .block =>
    if properties.isEmpty then pageBreakParagraph
    else "<w:p><w:pPr>" ++ properties ++ "</w:pPr></w:p>"

end BreakKind

/-- A **template prepared for copying**: its tokens joined, its convention told, and
the rules by which values are found and written. -/
structure Replicator where
  template : Text
  convention : PlaceholderConvention
  separator : Text
  aliases : List Alias
  rules : FormatRules
  deriving DecidableEq, Repr

namespace Replicator

/-- Prepares the template of a located region. -/
def of (location : Location) (kind : BreakKind) (aliases : List Alias) (rules : FormatRules) :
    Replicator :=
  let convention := PlaceholderConvention.detect location.template
  { template := repairTokens convention location.template
    convention := convention
    separator := kind.markup location.context location.sectionProperties
    aliases := aliases
    rules := rules }

/-- The **copy** of one record. -/
def render (r : Replicator) (shared : SharedContext) (record : Record) : Text :=
  substitute r.convention (Substitutions.resolve r.rules r.aliases shared record) r.template

/-- All **copies** in the order of the records, with the separator between each
two. -/
def copies (r : Replicator) (shared : SharedContext) (records : List Record) : Text :=
  Text.join r.separator (records.map (r.render shared))

end Replicator

end MailMerge
