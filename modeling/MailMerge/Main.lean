import MailMerge.CommandLine.Run
import Std.Time.DateTime.Timestamp

/-!
# The program

Performs what the library describes on the machine it runs on. There is no network here:
every exchange with an endpoint fails.

* `Host.perform` performs one operation;
* `main` reads the arguments, runs the command and prints what comes of it.
-/

namespace MailMerge

namespace Host

/-- The fault of a failed operation. -/
def fault : IO.Error → StorageFault
  | .noFileOrDirectory _ _ _ | .noSuchThing _ _ _ => .notFound
  | .alreadyExists _ _ _ => .exists
  | error => .other (toString error)

/-- The result of an operation on files. -/
def attempt {α : Type} (operation : IO α) : IO (Except StorageFault α) := do
  try return .ok (← operation)
  catch error => return .error (fault error)

/-- Whether anything stands at a path. -/
def hasEntry (path : String) : IO Bool := do
  try
    let _ ← IO.FS.realPath path
    return true
  catch _ => return false

/-- The time. -/
def now : IO Instant := do
  let stamp ← Std.Time.Timestamp.now
  return ⟨stamp.toSecondsSinceUnixEpoch.val, stamp.val.nano.val.toNat⟩

/-- Performs an **operation**. -/
def perform : (operation : Operation) → IO operation.Reply
  | .readFile path =>
    attempt (α := Bytes) do return (← IO.FS.readBinFile (String.ofList path)).toList
  | .writeFile path content =>
    attempt (α := Unit) (IO.FS.writeBinFile (String.ofList path) ⟨content.toArray⟩)
  | .createDirectories path =>
    attempt (α := Unit) do
      if !path.isEmpty then IO.FS.createDirAll (String.ofList path)
  | .rename old new =>
    attempt (α := Unit) (IO.FS.rename (String.ofList old) (String.ofList new))
  | .removeFile path => attempt (α := Unit) (IO.FS.removeFile (String.ofList path))
  | .hasEntry path => hasEntry (String.ofList path)
  | .environment name => do return (← IO.getEnv (String.ofList name)).map String.toList
  | .homeDirectory => do return (← IO.getEnv "HOME").map String.toList
  | .currentTime => now
  | .exchange request =>
    return Except.error (if request.isProper then request.unansweredText else request.improperText)

end Host

end MailMerge

open MailMerge in
/-- Reads the arguments, runs the command and prints what comes of it. -/
def main (arguments : List String) : IO UInt32 := do
  match Invocation.ofArguments (arguments.map String.toList) with
  | .error halt =>
    IO.print (String.ofList halt.answer)
    if halt == .nothing then IO.eprint (String.ofList Halt.usageText)
    if let some complaint := halt.complaint? then
      IO.eprintln ("error: " ++ String.ofList complaint)
    return halt.code
  | .ok invocation =>
    match ← (runInvocation invocation).run.interpret Host.perform with
    | .ok text =>
      IO.print (String.ofList text)
      return 0
    | .error fault =>
      IO.eprintln ("Error: " ++ String.ofList fault.message)
      return 1
