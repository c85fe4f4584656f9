import MailMerge.Configuration.Basic
import MailMerge.FileName
import MailMerge.Generation.Document
import MailMerge.Generation.Progress
import MailMerge.Template

/-!
# Merging

The records are put into a template: all of them into one document, or each into a
document of its own. Either all documents come out or none.

* `MergeOptions` says how documents are made and named;
* `generate` makes one document of all records;
* `generateEach` makes one document for each record.
-/

namespace MailMerge

/-- How documents are **made and named**. -/
structure MergeOptions where
  markers : MarkerNames
  breakKind : BreakKind
  validates : Bool
  format : FormatRules
  aliases : List Alias
  batchName : Text
  filePrefix : Text
  nameFields : List Text
  deriving DecidableEq, Repr

namespace MergeOptions

/-- The options of a configuration. -/
def ofConfiguration (c : Configuration) : MergeOptions where
  markers := c.generation.markers
  breakKind := c.generation.breakKind
  validates := c.generation.validates
  format := c.format
  aliases := c.placeholders.aliases
  batchName := c.output.batchName
  filePrefix := c.output.filePrefix
  nameFields := c.output.nameFields

/-- The options by default. -/
def standard : MergeOptions := ofConfiguration .standard

/-- A template prepared for copying. -/
def replicator (options : MergeOptions) (template : Template) : Replicator :=
  .of template.location options.breakKind options.aliases options.format

end MergeOptions

/-- Reports that each record of a list is done. -/
def reportRecords (total : Nat) : Tracked Unit :=
  ⟨(List.range total).map fun i => .record (i + 1) total, .ok ()⟩

/-- **Generates** one document of all records. -/
def generate (options : MergeOptions) (template : Bytes) (records : List Record)
    (shared : SharedContext) : Tracked Document := do
  Tracked.report (.phase "Locating section")
  let opened ← Tracked.ofResult (Template.ofBytes? options.markers template)
  Tracked.report (.phase "Populating copies")
  let copies := (options.replicator opened).copies shared records
  reportRecords records.length
  Tracked.report (.phase "Assembling document")
  let archive ← Tracked.ofResult (opened.assemble options.validates copies)
  return ⟨options.batchName, archive, records.length⟩

/-- The documents of records, one for each. `index` is the number of records before
them, and `used` are the names that are taken. -/
def documentsOf (options : MergeOptions) (template : Template) (shared : SharedContext)
    (total : Nat) (used : List Text) (index : Nat) : List Record → Tracked (List Document)
  | [] => pure []
  | record :: records => do
    let copy := (options.replicator template).render shared record
    let archive ← Tracked.ofResult (template.assemble options.validates copy)
    let name := uniqueName used
      (documentFileName options.filePrefix options.nameFields record (index + 1))
    Tracked.report (.record (index + 1) total)
    let others ← documentsOf options template shared total (name :: used) (index + 1) records
    return ⟨name, archive, 1⟩ :: others

/-- **Generates** one document for each record. -/
def generateEach (options : MergeOptions) (template : Bytes) (records : List Record)
    (shared : SharedContext) : Tracked (List Document) := do
  Tracked.report (.phase "Locating section")
  let opened ← Tracked.ofResult (Template.ofBytes? options.markers template)
  Tracked.report (.phase "Populating documents")
  documentsOf options opened shared records.length [] 0 records

end MailMerge
