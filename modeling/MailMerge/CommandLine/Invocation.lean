import MailMerge.CommandLine.Parameter
import MailMerge.Generation.Run

/-!
# Invocations

What the program is asked to do, and why it cannot tell from its arguments.

* `Invocation` is what the program is asked to do;
* `Command.ofSettings` makes a command of what is given to it;
* `Halt` says why there is no invocation, `ArgumentFault.message` in words.
-/

namespace MailMerge

/-! ### Commands -/

/-- Which **template** is used: the one that is configured, the one of the configured
endpoint, or a file. -/
inductive TemplateChoice where
  | configured
  | remote
  | file (path : Text)
  deriving DecidableEq, Repr

/-- What the command **generate** is given. -/
structure GenerateArguments where
  records : Text
  context : Option Text
  shared : List (Text × Text)
  kind : DocumentKind
  template : TemplateChoice
  mode : GenerationMode
  output : Option Text
  breakKind : Option BreakKind
  skipsValidation : Bool
  deriving DecidableEq, Repr

/-- A **command** with what it is given. -/
inductive Command where
  | generate (arguments : GenerateArguments)
  | inspect (template : Text)
  | createConfig
  | showConfig
  deriving DecidableEq, Repr

/-- An **invocation** of the program: the command, and the configuration file unless it is
the usual one. -/
structure Invocation where
  configuration : Option Text
  command : Command
  deriving DecidableEq, Repr

/-! ### Faults -/

/-- What is wrong with the **arguments**. -/
inductive ArgumentFault where
  | unexpected (argument : Text)
  | unexpectedValue (parameter : Parameter) (value : Text)
  | invalidValue (parameter : Parameter) (value : Text) (fault : ValueFault)
  | missingValue (parameter : Parameter)
  | repeated (parameter : Parameter)
  | conflict (parameter other : Parameter)
  | missingParameter (parameter : Parameter)
  | unknownCommand (name : Text)
  | missingCommand (scope : CommandScope)
  deriving DecidableEq, Repr

/-- The text of a fault. -/
def ArgumentFault.message : ArgumentFault → Text
  | .unexpected argument => "unexpected argument '" ++ argument ++ "' found"
  | .unexpectedValue parameter value =>
    "unexpected value '" ++ value ++ "' for '" ++ parameter.display ++
      "' found; no more were expected"
  | .invalidValue parameter value fault =>
    "invalid value '" ++ value ++ "' for '" ++ parameter.display ++ "'" ++
      match fault.reason? with
      | some reason => ": " ++ reason
      | none => []
  | .missingValue parameter =>
    "a value is required for '" ++ parameter.display ++ "' but none was supplied"
  | .repeated parameter =>
    "the argument '" ++ parameter.display ++ "' cannot be used multiple times"
  | .conflict parameter other =>
    "the argument '" ++ parameter.display ++ "' cannot be used with '" ++ other.display ++ "'"
  | .missingParameter parameter =>
    "the following required arguments were not provided:\n  " ++ parameter.display
  | .unknownCommand name => "unrecognized subcommand '" ++ name ++ "'"
  | .missingCommand scope =>
    "'" ++ scope.title ++ "' requires a subcommand but one was not provided"

/-- Why there is **no invocation**: the help or the version is asked for, nothing is given
at all, or the arguments are wrong. -/
inductive Halt where
  | help
  | version
  | nothing
  | fault (fault : ArgumentFault)
  deriving DecidableEq, Repr

namespace Halt

/-- How the program is used. -/
def usageText : Text := "Usage: docmerge [OPTIONS] <COMMAND>\n"

/-- The version of the program. -/
def versionText : Text := "docmerge 0.1.0\n"

/-- What is printed instead of running a command. -/
def answer : Halt → Text
  | .help => usageText
  | .version => versionText
  | .nothing | .fault _ => []

/-- What the program **complains** about. Where nothing is given, it only says how it is
used. -/
def complaint? : Halt → Option Text
  | .fault cause => some cause.message
  | .help | .version | .nothing => none

/-- The exit code. -/
def code : Halt → UInt32
  | .help | .version => 0
  | .nothing | .fault _ => 2

end Halt

/-! ### From settings to commands -/

namespace Command

/-- The first value of its kind among settings. -/
def first? {α : Type} (pick : Setting → Option α) (settings : List Setting) : Option α :=
  (settings.filterMap pick).head?

/-- The path of the records. -/
def recordsOf : Setting → Option Text
  | .records path => some path
  | _ => none

/-- The path of the shared values. -/
def contextOf : Setting → Option Text
  | .context path => some path
  | _ => none

/-- A shared value. -/
def sharedOf : Setting → Option (Text × Text)
  | .shared name value => some (name, value)
  | _ => none

/-- The kind of documents. -/
def kindOf : Setting → Option DocumentKind
  | .kind kind => some kind
  | _ => none

/-- The choice of a template. -/
def templateOf : Setting → Option TemplateChoice
  | .template path => some (.file path)
  | .remote => some .remote
  | _ => none

/-- The directory of the documents. -/
def outputOf : Setting → Option Text
  | .output path => some path
  | _ => none

/-- The kind of breaks. -/
def breakKindOf : Setting → Option BreakKind
  | .breakKind kind => some kind
  | _ => none

/-- The operand. -/
def operandOf : Setting → Option Text
  | .operand path => some path
  | _ => none

/-- The path of the configuration file. -/
def configurationOf : Setting → Option Text
  | .configuration path => some path
  | _ => none

/-- What is given to the command generate. The records must be, and only one choice of a
template may be. -/
def generateArguments (settings : List Setting) : Except ArgumentFault GenerateArguments :=
  match settings.filterMap templateOf, first? recordsOf settings with
  | .file _ :: _ :: _, _ => .error (.conflict .template .remote)
  | _ :: _ :: _, _ => .error (.conflict .remote .template)
  | _, none => .error (.missingParameter .records)
  | templates, some records => .ok {
      records := records
      context := first? contextOf settings
      shared := settings.filterMap sharedOf
      kind := (first? kindOf settings).getD .annual
      template := templates.head?.getD .configured
      mode := if settings.elem .split then .split else .batch
      output := first? outputOf settings
      breakKind := first? breakKindOf settings
      skipsValidation := settings.elem .noValidation }

/-- The **command** that settings make. -/
def ofSettings (settings : List Setting) : CommandScope → Except Halt Command
  | .generate => ((generateArguments settings).map .generate).mapError .fault
  | .inspect =>
    match first? operandOf settings with
    | some path => .ok (.inspect path)
    | none => .error (.fault (.missingParameter .operand))
  | .createConfig => .ok .createConfig
  | .showConfig => .ok .showConfig
  | scope => .error (if settings.isEmpty then .nothing else .fault (.missingCommand scope))

end Command

/-- The **invocation** that settings make. -/
def Invocation.ofSettings (settings : List Setting) (scope : CommandScope) :
    Except Halt Invocation := do
  return ⟨Command.first? Command.configurationOf settings, ← Command.ofSettings settings scope⟩

/-- An invocation of a command within another. What is given to the inner command goes
first. -/
def Invocation.within (outer : List Setting) (inner : Invocation) : Invocation :=
  { inner with
    configuration := inner.configuration <|> Command.first? Command.configurationOf outer }

end MailMerge
