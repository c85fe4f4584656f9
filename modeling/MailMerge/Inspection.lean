import MailMerge.Replication
import MailMerge.Template

/-!
# Inspecting templates

What the generator will make of a template, without generating.

* `inspect` opens a template and reports on it.
-/

namespace MailMerge

/-- A **report on a template**: its parts, how its region is marked, where it lies, and
the placeholders of the region. -/
structure TemplateReport where
  mainName : Text
  partCount : Nat
  strategy : MarkerStrategy
  context : BreakContext
  convention : PlaceholderConvention
  placeholders : List Text
  hasSectionProperties : Bool
  deriving DecidableEq, Repr

/-- The report on an opened template. -/
def Template.report (t : Template) : TemplateReport :=
  let replicator := Replicator.of t.location .none [] .plain
  { mainName := t.package.mainName
    partCount := t.package.size
    strategy := t.location.strategy
    context := t.location.context
    convention := replicator.convention
    placeholders := scanPlaceholders replicator.convention replicator.template
    hasSectionProperties := !t.location.sectionProperties.isEmpty }

/-- **Inspects** a template. -/
def inspect (names : MarkerNames) (template : Bytes) : Except MergeError TemplateReport := do
  let opened ← Template.ofBytes? names template
  return opened.report

end MailMerge
