import MailMerge.Access.Authorize
import MailMerge.CommandLine.Reader
import MailMerge.CommandLine.Report
import MailMerge.Output

/-!
# Running commands

Each command ends with the text that it prints, or with a fault. Generating goes through
the access gate before anything else is read, and writes documents only when all of them
are made.

* `CommandRun` is an action that may end with a `CommandFault`;
* `runGenerate`, `runInspect`, `runCreate` and `runShow` run the commands;
* `runInvocation` runs an invocation.
-/

namespace MailMerge

/-- Why a command **fails**. -/
inductive CommandFault where
  | passwordUnset (variableName : Text)
  | unreadableRecords (path : Text)
  | noRecords (path : Text)
  | unreadableContext (path : Text)
  | noContext (path : Text)
  | unreadableTemplate (path : Text)
  | failure (error : MergeError)
  deriving DecidableEq, Repr

/-- The text of a fault. -/
def CommandFault.message : CommandFault → Text
  | .passwordUnset name =>
    "access gate is enabled; set " ++ name ++ " to the access password"
  | .unreadableRecords path => "cannot read records " ++ path
  | .noRecords path => path ++ " is not a JSON array of objects"
  | .unreadableContext path => "cannot read context " ++ path
  | .noContext path => path ++ " is not a JSON object"
  | .unreadableTemplate path => "cannot read template " ++ path
  | .failure error => error.message

/-- A **run** of a command: an action that may fail. -/
abbrev CommandRun (α : Type) := ExceptT CommandFault Action α

namespace CommandRun

variable {α : Type}

/-- A run that does not fail. -/
def ofAction (action : Action α) : CommandRun α := ExceptT.lift action

/-- A run of a procedure. -/
def ofProcedure (procedure : Procedure α) : CommandRun α :=
  ExceptT.mk do return (← procedure.run).mapError .failure

/-- A result. -/
def ofResult (result : Except CommandFault α) : CommandRun α := ExceptT.mk (pure result)

end CommandRun

/-! ### Input -/

/-- The configuration: of a certain file, or that of the user. -/
def configurationFor (path : Option Text) : CommandRun Configuration :=
  match path with
  | some path => .ofProcedure (readConfiguration path)
  | none => .ofProcedure loadConfiguration

/-- Reads a file of the user, with a fault of its own. -/
def readInput (fault : CommandFault) (path : Text) : CommandRun Bytes := do
  match ← CommandRun.ofAction (Action.readFile path) with
  | .ok bytes => return bytes
  | .error _ => throw fault

/-- Reads a text file of the user, with a fault of its own. -/
def readInputText (fault : CommandFault) (path : Text) : CommandRun Text := do
  match Text.ofUtf8? (← readInput fault path) with
  | some t => return t
  | none => throw fault

/-- Reads the records. -/
def readRecords (path : Text) : CommandRun (List Record) := do
  match Record.listOfText? (← readInputText (.unreadableRecords path) path) with
  | some records => return records
  | none => throw (.noRecords path)

/-- Reads the shared values of a file, if there is one. -/
def readContext : Option Text → CommandRun Record
  | none => return .empty
  | some path => do
    match Record.ofText? (← readInputText (.unreadableContext path) path) with
    | some record => return record
    | none => throw (.noContext path)

/-- The shared context: the values of the file, those of the arguments over them, and the
names that are reserved. -/
def sharedContext (reserved : List Text) (values : Record) (given : List (Text × Text)) :
    SharedContext :=
  ⟨given.foldl (fun record pair => record.insert pair.1 (.text pair.2)) values, reserved⟩

/-- The source of the template. -/
def sourceFor (settings : TemplateSettings) : TemplateChoice → CommandRun TemplateSource
  | .configured => .ofProcedure (TemplateSource.ofSettings settings false)
  | .remote => .ofProcedure (TemplateSource.ofSettings settings true)
  | .file path => do return .uploaded (← readInput (.unreadableTemplate path) path)

/-! ### Commands -/

/-- Passes the **gate**, if there is one. -/
def passGate (settings : AccessSettings) : CommandRun Unit := do
  if settings.validateUrl.isSome then
    match ← CommandRun.ofAction (Action.environment settings.passwordVariable) with
    | none => throw (.passwordUnset settings.passwordVariable)
    | some password =>
      let path ← CommandRun.ofProcedure gatePath
      let now ← CommandRun.ofAction Action.currentTime
      CommandRun.ofProcedure (authorize path settings password now)

/-- The options for generating. -/
def generationOptions (configuration : Configuration) (arguments : GenerateArguments) :
    MergeOptions :=
  let options := MergeOptions.ofConfiguration configuration
  { options with
    breakKind := arguments.breakKind.getD options.breakKind
    validates := options.validates && !arguments.skipsValidation }

/-- **Generates** documents and writes them. -/
def runGenerate (configurationPath : Option Text) (arguments : GenerateArguments) :
    CommandRun Text := do
  let configuration ← configurationFor configurationPath
  passGate configuration.access
  let records ← readRecords arguments.records
  let values ← readContext arguments.context
  let shared := sharedContext configuration.placeholders.reserved values arguments.shared
  let source ← sourceFor configuration.template arguments.template
  let options := generationOptions configuration arguments
  let request : GenerationRequest := ⟨source, arguments.kind, records, shared, arguments.mode⟩
  let outcome ← CommandRun.ofAction (runRequest options request)
  let documents ← CommandRun.ofResult (outcome.result.mapError .failure)
  let directory := arguments.output.getD configuration.output.directory
  let files := documents.map fun document => OutputFile.mk document.fileName document.bytes
  let paths ← CommandRun.ofProcedure (writeDocuments directory files)
  return generationText paths documents

/-- **Inspects** a template. -/
def runInspect (configurationPath : Option Text) (template : Text) : CommandRun Text := do
  let configuration ← configurationFor configurationPath
  let bytes ← readInput (.unreadableTemplate template) template
  let report ← CommandRun.ofResult
    ((inspect configuration.generation.markers bytes).mapError .failure)
  return report.toText

/-- **Writes** a configuration file. -/
def runCreate : CommandRun Text := do
  return initializedText (← CommandRun.ofProcedure initializeConfiguration)

/-- **Shows** the configuration. -/
def runShow (configurationPath : Option Text) : CommandRun Text := do
  return (← configurationFor configurationPath).toText ++ "\n"

/-- Runs an **invocation**. -/
def runInvocation (invocation : Invocation) : CommandRun Text :=
  match invocation.command with
  | .generate arguments => runGenerate invocation.configuration arguments
  | .inspect template => runInspect invocation.configuration template
  | .createConfig => runCreate
  | .showConfig => runShow invocation.configuration

end MailMerge
