import MailMerge.Choice

/-!
# Parameters

What can be given on the command line: the commands, and the parameters of each. A
parameter is a switch, an option with a value, or the operand of a command.

* `CommandScope` is the program or one of its commands;
* `Parameter` is what can be given to it, and `Setting` what is given;
* `Parameter.role` says what a parameter is for, and how its value is read.
-/

namespace MailMerge

/-! ### Settings -/

/-- What is **given** on the command line. -/
inductive Setting where
  | logFormat (asJson : Bool)
  | verbose
  | configuration (path : Text)
  | records (path : Text)
  | context (path : Text)
  | shared (name value : Text)
  | kind (kind : DocumentKind)
  | template (path : Text)
  | remote
  | split
  | output (path : Text)
  | breakKind (kind : BreakKind)
  | noValidation
  | operand (path : Text)
  deriving DecidableEq, Repr

/-- What is wrong with a **value**. -/
inductive ValueFault where
  | isEmpty
  | unknown
  | noPair (raw : Text)
  | emptyKey (raw : Text)
  | refused (error : MergeError)
  deriving DecidableEq, Repr

/-- The reason of a fault, if there is one to tell. -/
def ValueFault.reason? : ValueFault → Option Text
  | .isEmpty | .unknown => none
  | .noPair raw => some ("expected KEY=VALUE, got '" ++ raw ++ "'")
  | .emptyKey raw => some ("empty key in '" ++ raw ++ "'")
  | .refused error => some error.message

/-! ### Values -/

namespace Setting

/-- Reads a path. -/
def ofPath (make : Text → Setting) (value : Text) : Except ValueFault Setting :=
  if value.isEmpty then .error .isEmpty else .ok (make value)

/-- Reads the format of the log. -/
def ofLogFormat (value : Text) : Except ValueFault Setting :=
  if value.isEmpty then .error .isEmpty
  else if value == "text".toList then .ok (.logFormat false)
  else if value == "json".toList then .ok (.logFormat true)
  else .error .unknown

/-- Reads a shared value: its name, an equals sign, and the value. -/
def ofShared (value : Text) : Except ValueFault Setting :=
  match Text.cut? "=" value with
  | none => .error (.noPair value)
  | some (name, rest) =>
    if (Text.trim name).isEmpty then .error (.emptyKey value)
    else .ok (.shared (Text.trim name) rest)

/-- Reads a kind of documents. -/
def ofKind (value : Text) : Except ValueFault Setting :=
  ((DocumentKind.ofChoice value).mapError .refused).map .kind

/-- Reads a kind of breaks. -/
def ofBreakKind (value : Text) : Except ValueFault Setting :=
  ((BreakKind.ofChoice value).mapError .refused).map .breakKind

end Setting

/-! ### Parameters -/

/-- What **can be given** to a command. -/
inductive Parameter where
  | logFormat
  | verbose
  | configuration
  | help
  | version
  | records
  | context
  | shared
  | kind
  | template
  | remote
  | split
  | output
  | breakKind
  | noValidation
  | operand
  deriving DecidableEq, Repr

/-- What a parameter is **for**: it asks for the help or the version, it is a switch, or
it has a value that must be read. -/
inductive ParameterRole where
  | help
  | version
  | switch (setting : Setting)
  | value (name : String) (read : Text → Except ValueFault Setting)

namespace Parameter

/-- The role of a parameter. -/
def role : Parameter → ParameterRole
  | .logFormat => .value "LOG_FORMAT" Setting.ofLogFormat
  | .verbose => .switch .verbose
  | .configuration => .value "CONFIG" (Setting.ofPath .configuration)
  | .help => .help
  | .version => .version
  | .records => .value "RECORDS" (Setting.ofPath .records)
  | .context => .value "CONTEXT" (Setting.ofPath .context)
  | .shared => .value "SET" Setting.ofShared
  | .kind => .value "KIND" Setting.ofKind
  | .template => .value "TEMPLATE" (Setting.ofPath .template)
  | .remote => .switch .remote
  | .split => .switch .split
  | .output => .value "OUT" (Setting.ofPath .output)
  | .breakKind => .value "BREAK_KIND" Setting.ofBreakKind
  | .noValidation => .switch .noValidation
  | .operand => .value "TEMPLATE" (Setting.ofPath .operand)

/-- The long name of a parameter. The operand has none. -/
def longName? : Parameter → Option String
  | .logFormat => some "log-format"
  | .verbose => some "verbose"
  | .configuration => some "config"
  | .help => some "help"
  | .version => some "version"
  | .records => some "records"
  | .context => some "context"
  | .shared => some "set"
  | .kind => some "kind"
  | .template => some "template"
  | .remote => some "remote"
  | .split => some "split"
  | .output => some "out"
  | .breakKind => some "break"
  | .noValidation => some "no-validate"
  | .operand => none

/-- The letter of a parameter. -/
def letter? : Parameter → Option Char
  | .verbose => some 'v'
  | .help => some 'h'
  | .version => some 'V'
  | .records => some 'r'
  | .context => some 'c'
  | .kind => some 'k'
  | .template => some 't'
  | .output => some 'o'
  | _ => none

/-- Whether a parameter may be given several times. -/
def isRepeatable (p : Parameter) : Bool := p == .verbose || p == .shared

/-- The name of a parameter in messages. -/
def display (p : Parameter) : Text :=
  match p.longName?, p.role with
  | some name, .value valueName _ => "--" ++ name.toList ++ " <" ++ valueName.toList ++ ">"
  | some name, _ => "--" ++ name.toList ++ (if p.isRepeatable then "...".toList else [])
  | none, .value valueName _ => "<" ++ valueName.toList ++ ">"
  | none, _ => []

end Parameter

/-- The parameter that a setting was given for. -/
def Setting.parameter : Setting → Parameter
  | .logFormat _ => .logFormat
  | .verbose => .verbose
  | .configuration _ => .configuration
  | .records _ => .records
  | .context _ => .context
  | .shared _ _ => .shared
  | .kind _ => .kind
  | .template _ => .template
  | .remote => .remote
  | .split => .split
  | .output _ => .output
  | .breakKind _ => .breakKind
  | .noValidation => .noValidation
  | .operand _ => .operand

/-! ### Commands -/

/-- The **program or a command** of it. -/
inductive CommandScope where
  | program
  | generate
  | inspect
  | config
  | createConfig
  | showConfig
  | help
  deriving DecidableEq, Repr

namespace CommandScope

/-- The commands within a command, by name. -/
def commands : CommandScope → List (String × CommandScope)
  | .program => [("generate", .generate), ("inspect", .inspect), ("config", .config),
      ("help", .help)]
  | .config => [("init", .createConfig), ("show", .showConfig), ("help", .help)]
  | _ => []

/-- The command of a name. -/
def command? (scope : CommandScope) (name : Text) : Option CommandScope :=
  (scope.commands.find? fun c => c.1.toList == name).map (·.2)

/-- The parameters that every command has. -/
def globalParameters : List Parameter := [.logFormat, .verbose, .configuration, .help]

/-- The parameters of a command, its operand aside. -/
def parameters : CommandScope → List Parameter
  | .program => globalParameters ++ [.version]
  | .generate => globalParameters ++ [.records, .context, .shared, .kind, .template, .remote,
      .split, .output, .breakKind, .noValidation]
  | _ => globalParameters

/-- Whether a command has an operand. -/
def hasOperand (scope : CommandScope) : Bool := scope == .inspect

/-- The parameter of a long name. -/
def long? (scope : CommandScope) (name : Text) : Option Parameter :=
  scope.parameters.find? fun p => p.longName?.map String.toList == some name

/-- The parameter of a letter. -/
def letter? (scope : CommandScope) (c : Char) : Option Parameter :=
  scope.parameters.find? fun p => p.letter? == some c

/-- The name of a command in messages. -/
def title : CommandScope → Text
  | .config => "docmerge config"
  | _ => "docmerge"

end CommandScope

end MailMerge
