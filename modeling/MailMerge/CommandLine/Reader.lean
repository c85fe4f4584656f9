import MailMerge.CommandLine.Invocation

/-!
# Reading arguments

Arguments are read from left to right. The name of a command starts a level of its own,
to which all that follows is given. An option may have its value in the same argument or
in the next one; in the next one, the value is looked at when something else follows.

* `ArgumentForm` is what an argument looks like;
* `ArgumentLevel` is what is known of a command while its arguments are read;
* `Invocation.ofArguments` reads the arguments of the program.
-/

namespace MailMerge

/-- What an argument **looks like**: two dashes, a long name that may have a value, letters
behind a dash, or none of these. -/
inductive ArgumentForm where
  | dashes
  | long (name : Text) (value : Option Text)
  | letters (letters : Text)
  | plain
  deriving DecidableEq, Repr

/-- The form of an argument. -/
def ArgumentForm.of : Text → ArgumentForm
  | ['-', '-'] => .dashes
  | '-' :: '-' :: t =>
    match Text.cut? "=" t with
    | some (name, value) => .long name (some value)
    | none => .long t none
  | '-' :: c :: t => .letters (c :: t)
  | _ => .plain

/-- A parameter whose value is **not looked at** yet, or still to come. -/
structure AwaitedValue where
  parameter : Parameter
  read : Text → Except ValueFault Setting
  value : Option Text

/-- A **level**: a command, what is given to it, and whether only operands may follow. -/
structure ArgumentLevel where
  scope : CommandScope
  settings : List Setting
  awaited : Option AwaitedValue
  isOperandsOnly : Bool

namespace ArgumentLevel

/-- The level of a command to which nothing is given. -/
def start (scope : CommandScope) : ArgumentLevel := ⟨scope, [], none, false⟩

/-- Whether the next argument must be a value. -/
def isWaiting (level : ArgumentLevel) : Bool :=
  level.awaited.any fun awaited => awaited.value.isNone

/-! ### Settings -/

/-- Whether a parameter can be given once more. -/
def isFree (level : ArgumentLevel) (p : Parameter) : Bool :=
  p.isRepeatable || !level.settings.any fun s => s.parameter == p

/-- Gives a switch. -/
def give (level : ArgumentLevel) (setting : Setting) : Except Halt ArgumentLevel :=
  if level.isFree setting.parameter then
    .ok { level with settings := level.settings ++ [setting] }
  else .error (.fault (.repeated setting.parameter))

/-- Gives a parameter with a value. -/
def giveValue (level : ArgumentLevel) (p : Parameter) (read : Text → Except ValueFault Setting)
    (value : Text) : Except Halt ArgumentLevel :=
  if level.isFree p then
    match read value with
    | .ok setting => .ok { level with settings := level.settings ++ [setting] }
    | .error .isEmpty => .error (.fault (.missingValue p))
    | .error fault => .error (.fault (.invalidValue p value fault))
  else .error (.fault (.repeated p))

/-- Looks at the value that is awaited. -/
def resolve (level : ArgumentLevel) : Except Halt ArgumentLevel :=
  match level.awaited with
  | none => .ok level
  | some ⟨p, _, none⟩ => .error (.fault (.missingValue p))
  | some ⟨p, read, some value⟩ => { level with awaited := none }.giveValue p read value

/-- Awaits the value of a parameter. -/
def await (level : ArgumentLevel) (p : Parameter) (read : Text → Except ValueFault Setting)
    (value : Option Text) : ArgumentLevel :=
  { level with awaited := some ⟨p, read, value⟩ }

/-! ### Arguments -/

/-- Gives a parameter, and its value if it stands in the same argument. -/
def readParameter (level : ArgumentLevel) (p : Parameter) (value : Option Text) :
    Except Halt ArgumentLevel :=
  match p.role, value with
  | .value _ read, some value => do (← level.resolve).giveValue p read value
  | .value _ read, none => do return (← level.resolve).await p read none
  | _, some value => .error (.fault (.unexpectedValue p value))
  | .switch setting, none => do (← level.resolve).give setting
  | .help, none => do
    let _ ← level.resolve
    .error .help
  | .version, none => do
    let _ ← level.resolve
    .error .version

/-- Reads a long name. -/
def readLong (level : ArgumentLevel) (name : Text) (value : Option Text) :
    Except Halt ArgumentLevel :=
  match level.scope.long? name with
  | some p => level.readParameter p value
  | none => .error (.fault (.unexpected ("--" ++ name)))

/-- What follows a letter in the same argument is its value, an equals sign apart. -/
def valueAfter : Text → Option Text
  | [] => none
  | '=' :: t => some t
  | t => some t

/-- Reads letters. A letter with a value ends them. -/
def readLetters (level : ArgumentLevel) : Text → Except Halt ArgumentLevel
  | [] => .ok level
  | c :: t =>
    match level.scope.letter? c with
    | none => .error (.fault (.unexpected ['-', c]))
    | some p =>
      match p.role with
      | .value _ _ => level.readParameter p (valueAfter t)
      | _ => do readLetters (← level.readParameter p none) t

/-- Whether the operand is given. -/
def hasOperand (level : ArgumentLevel) : Bool :=
  level.awaited.any (fun awaited => awaited.parameter == .operand) ||
    level.settings.any fun s => s.parameter == .operand

/-- Why there is no place for an argument. A command is not looked for behind two
dashes. -/
def strayFault (level : ArgumentLevel) (argument : Text) : ArgumentFault :=
  if level.scope.commands.isEmpty then .unexpected argument
  else if level.isOperandsOnly && (level.scope.command? argument).isSome then
    .unexpected argument
  else .unknownCommand argument

/-- Reads the operand. -/
def readOperand (level : ArgumentLevel) (argument : Text) : Except Halt ArgumentLevel :=
  if level.scope.hasOperand && !level.hasOperand then do
    return (← level.resolve).await .operand (Setting.ofPath .operand) (some argument)
  else .error (.fault (level.strayFault argument))

/-- Reads the value that is awaited, or else the operand. -/
def readPlain (level : ArgumentLevel) (argument : Text) : Except Halt ArgumentLevel :=
  match level.awaited with
  | some ⟨p, read, none⟩ => .ok (level.await p read (some argument))
  | _ => level.readOperand argument

/-- Reads an argument that names no command. -/
def readArgument (level : ArgumentLevel) (argument : Text) : Except Halt ArgumentLevel :=
  if level.isOperandsOnly then level.readOperand argument
  else
    match ArgumentForm.of argument with
    | .dashes => .ok { level with isOperandsOnly := true }
    | .long name value => level.readLong name value
    | .letters letters => level.readLetters letters
    | .plain => level.readPlain argument

/-- The command that an argument names. -/
def command? (level : ArgumentLevel) (argument : Text) : Option CommandScope :=
  if level.isOperandsOnly || level.isWaiting then none else level.scope.command? argument

/-- Looks for the command that help is asked for. -/
def helpHalt (scope : CommandScope) : List Text → Halt
  | [] => .help
  | name :: names =>
    match scope.command? name with
    | some inner => helpHalt inner names
    | none => .fault (.unknownCommand name)

/-- Reads **arguments**. What is given to a command within is read first, and then what is
still awaited before it. -/
def readAll (level : ArgumentLevel) : List Text → Except Halt Invocation
  | [] => do
    let level ← level.resolve
    Invocation.ofSettings level.settings level.scope
  | argument :: arguments =>
    match level.command? argument with
    | some .help => .error (helpHalt level.scope arguments)
    | some scope => do
      let inner ← (start scope).readAll arguments
      let level ← level.resolve
      return inner.within level.settings
    | none => do (← level.readArgument argument).readAll arguments

end ArgumentLevel

/-- Reads the **arguments of the program**. -/
def Invocation.ofArguments (arguments : List Text) : Except Halt Invocation :=
  (ArgumentLevel.start .program).readAll arguments

end MailMerge
