import MailMerge.Generation.Merge
import MailMerge.TemplateSource

/-!
# Runs

A run loads the template and generates documents from it, all records in one document or
each in its own.

* `generateAll` generates in a mode;
* `runRequest` loads the template and generates.
-/

namespace MailMerge

/-- Whether records **share a document** or have one each. -/
inductive GenerationMode where
  | batch
  | split
  deriving DecidableEq, Repr

/-- What a **run** is asked for. -/
structure GenerationRequest where
  source : TemplateSource
  kind : DocumentKind
  records : List Record
  shared : SharedContext
  mode : GenerationMode
  deriving DecidableEq, Repr

/-- Generates from a template in a mode. -/
def generateAll (options : MergeOptions) (mode : GenerationMode) (template : Bytes)
    (records : List Record) (shared : SharedContext) : Tracked (List Document) :=
  match mode with
  | .batch => (fun d => [d]) <$> generate options template records shared
  | .split => generateEach options template records shared

/-- Generates from a template that was loaded, and reports the documents. -/
def finishRun (options : MergeOptions) (request : GenerationRequest)
    (template : Except MergeError Bytes) : Tracked (List Document) := do
  Tracked.report (.phase "Loading template")
  let bytes ← Tracked.ofResult template
  let documents ← generateAll options request.mode bytes request.records request.shared
  Tracked.report (.done (documents.map Document.fileName))
  return documents

/-- **Runs** a request. -/
def runRequest (options : MergeOptions) (request : GenerationRequest) :
    Action (Tracked (List Document)) := do
  let template ← (loadTemplate request.source request.kind).run
  return finishRun options request template

end MailMerge
