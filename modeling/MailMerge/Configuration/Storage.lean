import MailMerge.Configuration.Printer
import MailMerge.Configuration.Reader
import MailMerge.Host.Action
import MailMerge.Storage.Path

/-!
# Configuration files

The configuration is kept in a directory of its own in the home directory. While there is
no file, the defaults hold.

* `loadConfiguration` reads the configuration, and `readConfiguration` a certain file;
* `initializeConfiguration` writes a file that holds the defaults.
-/

namespace MailMerge

/-- The **directory of the program** in the home directory. -/
def programDirectory : Procedure Text := do
  match ← Procedure.ofAction Action.homeDirectory with
  | some home => return Path.join home ".docmerge"
  | none => throw (.config .noHome)

/-- The path of the configuration file. -/
def configurationPath : Procedure Text := do
  return Path.join (← programDirectory) "docmerge.toml"

/-- Reads a text from a file. -/
def readText (path : Text) : Procedure Text := do
  match ← Procedure.ofAction (Action.readFile path) with
  | .error fault => throw (.storage path fault)
  | .ok bytes =>
    match Text.ofUtf8? bytes with
    | some t => return t
    | none => throw (.storage path .notText)

/-- Reads the configuration from a file. -/
def readConfiguration (path : Text) : Procedure Configuration := do
  match Configuration.ofText? (← readText path) with
  | some c => return c
  | none => throw (.config (.unreadable path))

/-- **Loads** the configuration of the user. -/
def loadConfiguration : Procedure Configuration := do
  let path ← configurationPath
  if ← Procedure.ofAction (Action.hasEntry path) then readConfiguration path
  else return .standard

/-- Writes the **defaults** to the configuration file, and gives its path. -/
def initializeConfiguration : Procedure Text := do
  let directory ← programDirectory
  match ← Procedure.ofAction (Action.createDirectories directory) with
  | .ok _ => pure ()
  | .error fault => throw (.storage directory fault)
  let path := Path.join directory "docmerge.toml"
  match ← Procedure.ofAction (Action.writeFile path Configuration.standard.toText.toUtf8) with
  | .ok _ => return path
  | .error fault => throw (.storage path fault)

end MailMerge
