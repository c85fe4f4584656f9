import MailMerge.Generation.Document
import MailMerge.Inspection

/-!
# What the program prints

The texts that the commands print when they succeed.

* `generationText` lists the documents that were written;
* `TemplateReport.toText` is the report on a template.
-/

namespace MailMerge

/-- A line about a document: its path, its copies and its size. -/
def documentLine (path : Text) (document : Document) : Text :=
  "  " ++ path ++ "  (" ++ Text.ofNat document.copies ++
    (if document.copies = 1 then " copy".toList else " copies".toList) ++ ", " ++
    Text.ofNat document.bytes.length ++ " bytes)\n"

/-- The **list of documents** that were written. -/
def generationText (paths : List Text) (documents : List Document) : Text :=
  "\n  Generated " ++ Text.ofNat paths.length ++ " document(s)\n" ++
    (List.zipWith documentLine paths documents).flatten ++ "\n"

/-- The name of a context in the report. -/
def BreakContext.title : BreakContext → Text
  | .block => "Block"
  | .inline => "Inline"

/-- The placeholders in the report. -/
def placeholdersText (names : List Text) : Text :=
  if names.isEmpty then "(none found)".toList else Text.join ", " names

/-- The **report on a template**. -/
def TemplateReport.toText (r : TemplateReport) : Text :=
  "\n  Main part:    " ++ r.mainName ++
    "\n  Parts:        " ++ Text.ofNat r.partCount ++
    "\n  Markers:      " ++ r.strategy.name ++
    "\n  Context:      " ++ r.context.title ++
    "\n  Convention:   " ++ r.convention.display ++
    "\n  Section props: " ++ (if r.hasSectionProperties then "yes".toList else "no".toList) ++
    "\n  Placeholders: " ++ placeholdersText r.placeholders ++ "\n\n"

/-- What is printed when the configuration file is written. -/
def initializedText (path : Text) : Text := "Config initialized at: " ++ path ++ "\n"

end MailMerge
